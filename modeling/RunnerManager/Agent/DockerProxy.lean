import RunnerManager.Agent.DockerJournal

/-!
# What a Docker proxy leaves in its journal

The journal of one attempt over every run of its proxy: creations of many clients are recorded,
forwarded and captured in any order. Read `Consistent.run` first: as long as the journal can be
written, every intent ends settled exactly when every journalled creation was acknowledged by the
engine and captured. `recoverCreations_loads`: a recovery settles nothing, and its journal loads.
-/

namespace RunnerManager.Agent.DockerCleanup

open RunnerManager.Domain RunnerManager.Platform RunnerManager.Result

/-! ## Journals that load -/

/-- The intents and the resources of a journal that loads. -/
structure Associations (intents : List Intent) (resources : List Resource) : Prop where
  operations : ∀ intent ∈ intents, validOperation intent.id = true
  distinct : (intents.map (·.id)).Nodup
  kept : ∀ intent ∈ intents, intent.wellKept = true
  identified : ∀ resource ∈ resources, validId resource.id = true ∧
    validOperation resource.operation = true ∧ resource.wellKept intents = true
  unique : (resources.map fun resource ↦ (resource.kind.collection, resource.id)).Nodup

/-- A journal a proxy serves: its engine and its process are known. -/
structure Served (journal : Journal) : Prop where
  schema : journal.schema = DockerCleanup.schema
  upstream : journal.upstream.toList.head? = some '/'
  engine : journal.engine ≠ "" ∧ journal.engine ≠ pendingEngine
  proxy : journal.proxy.isSome = true
  associations : Associations journal.intents journal.resources

theorem Served.load {journal : Journal} (h : Served journal) : journal.load = .ok journal := by
  obtain ⟨hschema, hupstream, ⟨hempty, hpending⟩, hproxy, hassociations⟩ := h
  obtain ⟨hoperations, hdistinct, hkept, hidentified, hunique⟩ := hassociations
  rw [Journal.load, if_neg, if_neg]
  · simp only [hdistinct, hunique, not_true_eq_false, false_or, not_or, not_and, not_exists,
      Bool.not_eq_true]
    refine ⟨fun _ hnone ↦ by simp [hnone] at hproxy, ?_, ?_⟩
    · exact fun intent hintent ↦ by simp [hkept intent hintent]
    · exact fun resource hresource ↦ by simp [(hidentified resource hresource).2.2]
  · simp only [hschema, hupstream, hempty, hpending, ne_eq, not_true_eq_false, false_and, false_or,
      not_or, not_exists, not_and, Bool.not_eq_true]
    refine ⟨fun intent hintent ↦ by simp [hoperations intent hintent], fun resource hresource ↦ ?_⟩
    simp [(hidentified resource hresource).1, (hidentified resource hresource).2.1]

theorem collection_injective {a b : Kind} (h : a.collection = b.collection) : a = b := by
  cases a <;> cases b <;> first | rfl | exact absurd h (by decide)

/-- An added resource keeps the associations. -/
theorem Associations.addResource {journal : Journal} {resource : Resource}
    (h : Associations journal.intents journal.resources)
    (hresource : validId resource.id = true ∧ validOperation resource.operation = true ∧
      resource.wellKept journal.intents = true) :
    Associations (addResource journal resource).intents
      (addResource journal resource).resources := by
  rw [DockerCleanup.addResource]
  split_ifs with hknown
  · exact h
  · refine ⟨h.operations, h.distinct, h.kept, ?_, ?_⟩
    · intro other hother
      rcases List.mem_append.mp hother with hother | hother
      · exact h.identified other hother
      · rw [List.mem_singleton.mp hother]
        exact hresource
    · rw [List.map_append, List.nodup_append]
      refine ⟨h.unique, by simp, ?_⟩
      intro pair hpair other hother heq
      obtain ⟨known, hmem, rfl⟩ := List.mem_map.mp hpair
      obtain ⟨_, hnew, rfl⟩ := List.mem_map.mp hother
      rw [List.mem_singleton.mp hnew, Prod.mk.injEq] at heq
      refine hknown (List.any_eq_true.mpr ⟨known, hmem, ?_⟩)
      simp [collection_injective heq.1, heq.2]

theorem Associations.find {intents : List Intent} {resources : List Resource} {intent : Intent}
    (h : Associations intents resources) (hintent : intent ∈ intents) :
    intents.find? (·.id = intent.id) = some intent := by
  have hdistinct := h.distinct
  clear h
  induction intents with
  | nil => cases hintent
  | cons first intents ih =>
    rw [List.map_cons, List.nodup_cons] at hdistinct
    rcases List.mem_cons.mp hintent with rfl | hmem
    · exact List.find?_cons_of_pos (by simp)
    · have hne : ¬ first.id = intent.id := fun heq ↦
        hdistinct.1 (heq ▸ List.mem_map_of_mem hmem)
      rw [List.find?_cons_of_neg (by simpa using hne)]
      exact ih hmem hdistinct.2

/-! ## Capturing keeps the journal -/

/-- The journal a program over it leaves, however it ends. -/
def leftJournal : Except (DockerError × Journal) Journal → Journal
  | .ok journal => journal
  | .error (_, journal) => journal

/-- Only resources were added, and the journal still loads. -/
structure Grown (journal next : Journal) : Prop where
  same : next = { journal with resources := next.resources }
  associations : Associations next.intents next.resources

theorem Grown.intents {journal next : Journal} (h : Grown journal next) :
    next.intents = journal.intents := by
  rw [h.same]

theorem Grown.trans {journal middle next : Journal} (h : Grown journal middle)
    (hnext : Grown middle next) : Grown journal next := by
  refine ⟨?_, hnext.associations⟩
  rw [hnext.same, h.same]

theorem Grown.served {journal next : Journal} (h : Grown journal next) (hserved : Served journal) :
    Served next := by
  obtain ⟨hsame, hassociations⟩ := h
  rw [hsame] at hassociations ⊢
  exact ⟨hserved.schema, hserved.upstream, hserved.engine, hserved.proxy, hassociations⟩

theorem grown_addResource {journal : Journal} {intent : Intent} {resource : Resource}
    (h : Associations journal.intents journal.resources) (hintent : intent ∈ journal.intents)
    (hid : validId resource.id = true) (hoperation : resource.operation = intent.id)
    (hkind : if resource.implicitVolume then resource.kind = .volume ∧ intent.kind = .container ∧
      intent.inheritsVolumes = false else resource.kind = intent.kind) :
    Grown journal (addResource journal resource) := by
  refine ⟨?_, h.addResource ⟨hid, ?_, ?_⟩⟩
  · rw [addResource]
    split_ifs <;> rfl
  · rw [hoperation]
    exact h.operations intent hintent
  · simp only [Resource.wellKept, hoperation, h.find hintent]
    split_ifs at hkind ⊢
    · simp [hkind]
    · simp [hkind]

/-- A program over the journal that ends with a grown one, whatever the engine answers. -/
def Grows (journal : Journal) (p : Docker Journal) : Prop :=
  Contract.anything.wp p (fun result _ ↦ Grown journal (leftJournal result)) ()

theorem grows_bind {journal : Journal} {p : Docker Journal} {f : Journal → Docker Journal}
    (hp : Grows journal p) (hf : ∀ next, Grown journal next → Grows journal (f next)) :
    Grows journal (p >>= f) :=
  Contract.wp_seq hp (fun next _ hnext ↦ hf next hnext) fun _ _ h ↦ h

theorem grows_ofExcept {α : Type} {journal next : Journal} {result : Except DockerError α}
    {f : α → Docker Journal} (h : Grown journal next)
    (hf : ∀ value, result = .ok value → Grows journal (f value)) :
    Grows journal (.ofExcept (·, next) result >>= f) := by
  cases result with
  | ok value => exact hf value rfl
  | error e => exact h

/-- An inspection leaves the journal as it is, and asks for identifiers only. -/
theorem grows_inspected {journal next : Journal} {kind : Kind} {id : String}
    {f : Option Json → Docker Journal} (h : Grown journal next)
    (hf : ∀ value, validId id = true → Grows journal (f value)) :
    Grows journal (inspected next kind id >>= f) := by
  rw [inspected]
  by_cases hvalid : validId id = true
  · rw [if_neg (not_not.mpr hvalid)]
    refine Contract.wp_seq (R := fun result _ ↦ ∀ e, result = .error e → e.2 = next) ?_ ?_ ?_
    · refine Contract.wp_seq (R := fun result _ ↦ ∀ e, result = .error e → e.2 = next) ?_ ?_ ?_
      · refine ⟨trivial, fun answer _ _ ↦ ?_⟩
        cases answer with
        | ok reply => exact fun _ hnone ↦ nomatch hnone
        | error e =>
          rintro _ ⟨⟩
          rfl
      · intro reply _ _
        split_ifs
        · exact fun _ hnone ↦ nomatch hnone
        · exact fun _ hnone ↦ nomatch hnone
        · rintro _ ⟨⟩
          rfl
      · rintro e _ he _ ⟨⟩
        exact he e rfl
    · exact fun value _ _ ↦ hf value hvalid
    · intro e _ he
      show Grown journal e.2
      rw [he e rfl]
      exact h
  · rw [if_pos hvalid]
    exact h

section Capture

variable {digest : String → String} {intent : Intent}

/-- Capturing mounts grows the journal of the container's intent. -/
theorem grows_captureMounts {journal : Journal} (hintent : intent ∈ journal.intents)
    (hkind : intent.kind = .container) (hinherits : intent.inheritsVolumes = false)
    (mounts : List Json) {next : Journal} (h : Grown journal next) :
    Grows journal (captureMounts digest intent mounts next) := by
  induction mounts generalizing next with
  | nil => exact h
  | cons mount mounts ih =>
    rw [captureMounts]
    split_ifs
    · exact ih h
    · split
      · exact h
      · split_ifs
        · exact ih h
        · split
          · exact h
          · next name _ =>
            split_ifs
            · refine grows_inspected h fun value hid ↦ ?_
              cases value with
              | none => exact ih h
              | some volume =>
                simp only
                split_ifs
                · exact ih h
                · refine grows_ofExcept h fun text _ ↦ ih (h.trans ?_)
                  refine grown_addResource h.associations (h.intents ▸ hintent) hid rfl ?_
                  simp [hkind, hinherits]
            · exact ih h

/-- Capturing a creation grows the journal of its intent. -/
theorem grows_captureCreated {journal : Journal}
    (hserved : Associations journal.intents journal.resources) (hintent : intent ∈ journal.intents)
    (id : String) : Grows journal (captureCreated digest journal intent id) := by
  have hsame : Grown journal journal := ⟨rfl, hserved⟩
  rw [captureCreated]
  refine grows_inspected hsame fun value hid ↦ ?_
  cases value with
  | none => exact hsame
  | some value =>
    have hadded : ∀ text, Grown journal (addResource journal {
        kind := intent.kind
        id
        created := text
        operation := intent.id
        implicitVolume := false }) :=
      fun text ↦ grown_addResource hserved hintent hid rfl (by simp)
    simp only
    split_ifs with hlabels hcontainer
    · exact grows_ofExcept hsame fun text _ ↦ hadded text
    · obtain ⟨hkind, hinherits⟩ := not_or.mp hcontainer
      exact grows_ofExcept hsame fun text _ ↦
        grows_captureMounts hintent (not_not.mp hkind) (by simpa using hinherits) _ (hadded text)
    · exact hsame

theorem grows_captureEntries {journal : Journal} (hintent : intent ∈ journal.intents)
    (entries : List Json) {next : Journal} (h : Grown journal next) :
    Grows journal (captureEntries digest intent entries next) := by
  induction entries generalizing next with
  | nil => exact h
  | cons entry entries ih =>
    rw [captureEntries]
    split
    · exact h
    · next id _ =>
      have hcaptured : Grows journal (captureCreated digest next intent id) :=
        Contract.wp_mono (grows_captureCreated h.associations (h.intents ▸ hintent) id)
          fun _ _ hnext ↦ h.trans hnext
      exact grows_bind hcaptured fun _ hnext ↦ ih hnext

theorem grows_recoverIntents {journal : Journal} (intents : List Intent)
    (hintents : ∀ intent ∈ intents, intent ∈ journal.intents) {next : Journal}
    (h : Grown journal next) : Grows journal (recoverIntents digest intents next) := by
  induction intents generalizing next with
  | nil => exact h
  | cons intent intents ih =>
    rw [List.forall_mem_cons] at hintents
    rw [recoverIntents]
    refine (Contract.wp_bind _ _).mpr ⟨trivial, fun answer _ _ ↦ ?_⟩
    cases answer with
    | error e => exact h
    | ok reply =>
      show Grows journal (ite _ _ _)
      split_ifs
      · exact h
      · split
        · exact h
        · exact grows_bind (grows_captureEntries hintents.1 _ h) fun _ hnext ↦
            ih hintents.2 hnext

/-- A journal with a creation that was not acknowledged. -/
def unacknowledged : Journal :=
  { Journal.new ⟨1⟩ ⟨2⟩ "acme/tools" "/var/run/docker.sock" "engine" with
    proxy := some ⟨7, "100"⟩
    intents := [⟨"00000000-0000-4000-8000-000000000001", .network, [], false, false⟩] }

def settledAt (id : String) (intents : List Intent) : List Intent :=
  intents.map fun intent ↦ if intent.id = id then { intent with settled := true } else intent

theorem settleFirst_eq {intents : List Intent} (hdistinct : (intents.map (·.id)).Nodup)
    (hintent : intent ∈ intents) :
    settleFirst intent.id intents = some (settledAt intent.id intents) := by
  induction intents with
  | nil => cases hintent
  | cons first intents ih =>
    rw [List.map_cons, List.nodup_cons] at hdistinct
    rw [settleFirst]
    split_ifs with hfirst
    · have hothers : settledAt intent.id intents = intents := by
        refine Eq.trans (List.map_congr_left fun other hother ↦ if_neg ?_) (List.map_id intents)
        intro heq
        exact hdistinct.1 (hfirst ▸ heq ▸ List.mem_map_of_mem hother)
      rw [settledAt, List.map_cons, if_pos hfirst, ← settledAt, hothers]
    · have hmem : intent ∈ intents :=
        (List.mem_cons.mp hintent).resolve_left fun heq ↦ hfirst (heq ▸ rfl)
      rw [ih hdistinct.2 hmem, Option.map_some, settledAt, settledAt, List.map_cons,
        if_neg hfirst]

/-- Settling keeps the associations. -/
theorem Associations.settledAt {intents : List Intent} {resources : List Resource}
    (h : Associations intents resources) (id : String) :
    Associations (settledAt id intents) resources := by
  have hid : ∀ intent : Intent,
      (if intent.id = id then { intent with settled := true } else intent).id = intent.id := by
    intro intent
    split_ifs <;> rfl
  have hids : (DockerCleanup.settledAt id intents).map (·.id) = intents.map (·.id) := by
    rw [DockerCleanup.settledAt, List.map_map]
    exact List.map_congr_left fun intent _ ↦ hid intent
  have hmem : ∀ intent ∈ DockerCleanup.settledAt id intents, ∃ own ∈ intents,
      intent.id = own.id ∧ intent.wellKept = own.wellKept := by
    intro intent hintent
    obtain ⟨own, hown, rfl⟩ := List.mem_map.mp hintent
    exact ⟨own, hown, hid own, by split_ifs <;> rfl⟩
  refine ⟨?_, hids ▸ h.distinct, ?_, ?_, h.unique⟩
  · intro intent hintent
    obtain ⟨own, hown, heq, -⟩ := hmem intent hintent
    exact heq ▸ h.operations own hown
  · intro intent hintent
    obtain ⟨own, hown, -, heq⟩ := hmem intent hintent
    exact heq ▸ h.kept own hown
  · intro resource hresource
    obtain ⟨hvalid, hoperation, hkept⟩ := h.identified resource hresource
    refine ⟨hvalid, hoperation, ?_⟩
    have hfind : (DockerCleanup.settledAt id intents).find? (·.id = resource.operation) =
        (intents.find? (·.id = resource.operation)).map fun intent ↦
          if intent.id = id then { intent with settled := true } else intent := by
      rw [DockerCleanup.settledAt, List.find?_map]
      congr 2
      funext intent
      simp only [Function.comp, hid intent]
    rw [Resource.wellKept] at hkept ⊢
    rw [hfind]
    cases hown : intents.find? (·.id = resource.operation) with
    | none => simp [hown] at hkept
    | some own =>
      rw [hown] at hkept
      simp only [Option.map_some] at hkept ⊢
      split_ifs at hkept ⊢ <;> exact hkept

/-- A journal with one of its intents settled. -/
structure Settled (journal : Journal) (id : String) (next : Journal) : Prop where
  served : Served next
  intents : next.intents = settledAt id journal.intents
  owner : next.host = journal.host ∧ next.attempt = journal.attempt

/-- The second part of `handle` settles the intent or only adds resources. -/
theorem settleIntent_keeps {journal : Journal} (h : Served journal)
    (hintent : intent ∈ journal.intents) (body : Json) :
    Contract.anything.wp (settleIntent digest journal intent body) (fun result _ ↦
      match result with
      | .ok next => Settled journal intent.id next
      | .error (_, next) => Grown journal next) () := by
  rw [settleIntent]
  split
  · exact ⟨rfl, h.associations⟩
  · next id _ =>
    refine Contract.wp_seq (grows_captureCreated h.associations hintent id) ?_ fun _ _ h ↦ h
    intro next _ hgrown
    have hgrown : Grown journal next := hgrown
    have hserved := hgrown.served h
    have hmem : intent ∈ next.intents := hgrown.intents ▸ hintent
    rw [settleFirst_eq hserved.associations.distinct hmem]
    refine ⟨?_, by rw [hgrown.intents], ?_⟩
    · exact ⟨hserved.schema, hserved.upstream, hserved.engine, hserved.proxy,
        hserved.associations.settledAt intent.id⟩
    · rw [hgrown.same]
      exact ⟨rfl, rfl⟩

/-- The answers with which the volumes of a container's mounts are captured. -/
def MountsCaptured (digest : String → String) (intent : Intent) :
    List Json → List (Except DockerError Reply) → Prop
  | [], _ => True
  | mount :: mounts, replies =>
    if (fieldOf "Type" mount).bind asStr ≠ some "volume" then
      MountsCaptured digest intent mounts replies
    else ∃ destination, (fieldOf "Destination" mount).bind asStr = some destination ∧
      if intent.explicitVolumeDestinations.contains (digest destination) then
        MountsCaptured digest intent mounts replies
      else ∃ name, (fieldOf "Name" mount).bind asStr = some name ∧
        if ¬ validId name then MountsCaptured digest intent mounts replies
        else ∃ reply rest, replies = .ok reply :: rest ∧
          MountsCaptured digest intent mounts rest ∧
          (reply.status = 404 ∨ reply.status = 200 ∧
            (retained (labelsOf reply.body .volume) = true ∨
              fieldOf "com.docker.volume.anonymous" (labelsOf reply.body .volume) = none ∨
              ∃ text, created reply.body = .ok text))

/-- The answers with which what a creation made is captured: it is gone again, or it has the
labels and a date, and so have the volumes it came with. -/
def Captured (digest : String → String) (journal : Journal) (intent : Intent) (id : String)
    (replies : List (Except DockerError Reply)) : Prop :=
  validId id = true ∧ ∃ reply rest, replies = .ok reply :: rest ∧
    (reply.status = 404 ∨ reply.status = 200 ∧
      matchesLabels journal intent (labelsOf reply.body intent.kind) = true ∧
      (∃ text, created reply.body = .ok text) ∧
      (intent.kind ≠ .container ∨ intent.inheritsVolumes = true ∨
        MountsCaptured digest intent (((fieldOf "Mounts" reply.body).bind asArray).getD []) rest))

/-- How an inspection and what follows it end well. -/
theorem inspected_play {journal : Journal} {kind : Kind} {id : String}
    {f : Option Json → Docker Journal} {replies : List (Except DockerError Reply)} :
    (∃ next, (inspected journal kind id >>= f).play replies = some (.ok next)) ↔
      validId id = true ∧ ∃ reply rest, replies = .ok reply :: rest ∧
        ((reply.status = 404 ∧ ∃ next, (f none).play rest = some (.ok next)) ∨
          (reply.status = 200 ∧ ∃ next, (f (some reply.body)).play rest = some (.ok next))) := by
  rw [inspected]
  by_cases hvalid : validId id = true
  · rw [if_neg (not_not.mpr hvalid)]
    match replies with
    | [] =>
      refine iff_of_false ?_ (by simp)
      rintro ⟨next, hnone⟩
      cases hnone
    | .error e :: rest =>
      refine iff_of_false ?_ (by simp)
      rintro ⟨next, hnone⟩
      cases rest <;> cases hnone
    | .ok reply :: rest =>
      show (∃ next, ((if reply.status = 404 then pure none
        else if reply.status = 200 then pure (some reply.body)
        else .fail ("Docker inspection failed", journal)) >>= f).play rest = some (.ok next)) ↔ _
      split_ifs with hgone hfound
      · simp [hvalid, hgone]
        rfl
      · simp [hvalid, hfound]
        rfl
      · refine iff_of_false ?_ (by simp [hgone, hfound])
        rintro ⟨next, hnone⟩
        cases rest <;> cases hnone
  · rw [if_pos hvalid]
    refine iff_of_false ?_ (by simp [hvalid])
    rintro ⟨next, hnone⟩
    cases replies <;> cases hnone

theorem created_play {journal : Journal} {result : Except DockerError String}
    {f : String → Docker Journal} {replies : List (Except DockerError Reply)} :
    (∃ next, (Program.ofExcept (·, journal) result >>= f : Docker Journal).play replies =
      some (.ok next)) ↔
      ∃ text, result = .ok text ∧ ∃ next, (f text).play replies = some (.ok next) := by
  cases result with
  | ok text =>
    simp
    rfl
  | error e =>
    refine iff_of_false ?_ (by simp)
    rintro ⟨next, hnone⟩
    cases replies <;> cases hnone

/-- The mounts are captured with just those answers. -/
theorem captureMounts_play (mounts : List Json) (journal : Journal)
    (replies : List (Except DockerError Reply)) :
    (∃ next, (captureMounts digest intent mounts journal).play replies = some (.ok next)) ↔
      MountsCaptured digest intent mounts replies := by
  induction mounts generalizing journal replies with
  | nil =>
    refine iff_of_true ⟨journal, ?_⟩ trivial
    cases replies <;> rfl
  | cons mount mounts ih =>
    rw [captureMounts, MountsCaptured]
    by_cases hvolume : (fieldOf "Type" mount).bind asStr ≠ some "volume"
    · rw [if_pos hvolume, if_pos hvolume]
      exact ih journal replies
    · rw [if_neg hvolume, if_neg hvolume]
      cases hdestination : (fieldOf "Destination" mount).bind asStr with
      | none =>
        refine iff_of_false ?_ (by simp)
        rintro ⟨next, hnone⟩
        cases replies <;> cases hnone
      | some destination =>
        simp only [Option.some.injEq, exists_eq_left']
        split_ifs with hexplicit
        · exact ih journal replies
        · cases hname : (fieldOf "Name" mount).bind asStr with
          | none =>
            refine iff_of_false ?_ (by simp)
            rintro ⟨next, hnone⟩
            cases replies <;> cases hnone
          | some name =>
            simp only [Option.some.injEq, exists_eq_left']
            by_cases hvalid : validId name = true
            · rw [if_neg (not_not.mpr hvalid), if_neg (not_not.mpr hvalid), inspected_play]
              simp only [hvalid, true_and]
              refine exists₂_congr fun reply rest ↦ and_congr_right fun _ ↦ ?_
              simp only [ih]
              split_ifs with hkept
              · rw [ih]
                tauto
              · rw [created_play]
                simp only [ih]
                tauto
            · rw [if_pos hvalid, if_pos hvalid]
              exact ih journal replies

/-- A creation is captured with just those answers. -/
theorem captureCreated_play {journal : Journal} {id : String}
    {replies : List (Except DockerError Reply)} :
    (∃ next, (captureCreated digest journal intent id).play replies = some (.ok next)) ↔
      Captured digest journal intent id replies := by
  rw [captureCreated, Captured, inspected_play]
  refine and_congr_right fun _ ↦ exists₂_congr fun reply rest ↦ and_congr_right fun _ ↦ ?_
  refine or_congr (and_iff_left ⟨journal, ?_⟩) (and_congr_right fun _ ↦ ?_)
  · cases rest <;> rfl
  · dsimp only
    by_cases hlabels : matchesLabels journal intent (labelsOf reply.body intent.kind) = true
    · rw [if_neg (not_not.mpr hlabels), created_play]
      simp only [hlabels, true_and, ← exists_and_right]
      refine exists_congr fun text ↦ and_congr_right fun _ ↦ ?_
      by_cases hplain : intent.kind ≠ .container ∨ intent.inheritsVolumes = true
      · rw [if_pos hplain]
        refine iff_of_true ?_ (or_assoc.mp (.inl hplain))
        cases rest <;> exact ⟨_, rfl⟩
      · rw [if_neg hplain, captureMounts_play, ← or_assoc]
        exact (or_iff_right hplain).symm
    · rw [if_pos hlabels]
      refine iff_of_false ?_ fun h ↦ hlabels h.1
      rintro ⟨next, hnone⟩
      cases rest <;> cases hnone

/-- An intent is settled exactly when the reply has an identity and the capture ends well. -/
theorem settleIntent_play {journal : Journal} (h : Served journal)
    (hintent : intent ∈ journal.intents) {body : Json}
    {replies : List (Except DockerError Reply)} {result : Except (DockerError × Journal) Journal}
    (hplay : (settleIntent digest journal intent body).play replies = some result) :
    (∃ next, result = .ok next) ↔
      ∃ id, identityOf intent.kind body = some id ∧ Captured digest journal intent id replies := by
  simp only [← captureCreated_play]
  rw [settleIntent] at hplay
  split at hplay
  · next hnone =>
    have hresult : result = .error ("Docker create returned no identity", journal) := by
      cases replies <;> exact (Option.some.inj hplay).symm
    simp [hresult, hnone]
  · next id hid =>
    rw [Program.play_then (g := fun next : Journal ↦ (settleFirst intent.id next.intents).elim
      (.error ("missing Docker creation intent", next)) fun intents ↦
        .ok { next with intents })] at hplay
    · obtain ⟨captured, hcaptured, hresult⟩ := Option.map_eq_some_iff.mp hplay
      cases captured with
      | error e =>
        subst hresult
        simp [hid, hcaptured, Except.bind]
      | ok next =>
        have hgrown : Grown journal next := Contract.of_play
          (grows_captureCreated h.associations hintent id) hcaptured
        have hsettled := settleFirst_eq (hgrown.served h).associations.distinct
          (hgrown.intents ▸ hintent)
        simp only [Except.bind, hsettled, Option.elim_some] at hresult
        simp [← hresult, hid, hcaptured]
    · intro next
      cases settleFirst intent.id next.intents <;> rfl

end Capture

/-! ## What an intent is made of -/

section Creation

variable {digest : String → String}

/-- The destinations of binds are digests. -/
theorem bindDestinations_digests {binds : List Json} {destinations : List String}
    (h : bindDestinations digest binds = .ok destinations) :
    ∀ destination ∈ destinations, ∃ text, destination = digest text := by
  induction binds generalizing destinations with
  | nil =>
    cases h
    simp
  | cons bind binds ih =>
    rw [bindDestinations] at h
    cases htext : asStr bind with
    | none => simp [htext, Bind.bind, Except.bind] at h
    | some text =>
      rw [htext] at h
      obtain ⟨_, ⟨⟩, h⟩ := bind_eq_ok.mp h
      obtain ⟨rest, hrest, h⟩ := bind_eq_ok.mp h
      split at h
      · cases h
        rw [List.forall_mem_cons]
        exact ⟨⟨_, rfl⟩, ih hrest⟩
      · cases h
        exact ih hrest

theorem mountDestinations_digests {mounts : List Json} {destinations : List String}
    (h : mountDestinations digest mounts = .ok destinations) :
    ∀ destination ∈ destinations, ∃ text, destination = digest text := by
  induction mounts generalizing destinations with
  | nil =>
    cases h
    simp
  | cons mount mounts ih =>
    rw [mountDestinations] at h
    split_ifs at h
    · cases htarget : (fieldOf "Target" mount).bind asStr with
      | none => simp [htarget, Bind.bind, Except.bind] at h
      | some target =>
        rw [htarget] at h
        obtain ⟨_, ⟨⟩, h⟩ := bind_eq_ok.mp h
        obtain ⟨rest, hrest, h⟩ := bind_eq_ok.mp h
        cases h
        rw [List.forall_mem_cons]
        exact ⟨⟨_, rfl⟩, ih hrest⟩
    · exact ih h

/-- A recorded intent is new, unsettled and holds digests. -/
theorem recordIntent_ok {journal next : Journal} {operation : String} {path : List Char}
    {body : Json} {intent : Intent}
    (h : recordIntent digest journal operation path body = .ok (next, some intent)) :
    next = { journal with intents := journal.intents ++ [intent] } ∧ intent.id = operation ∧
      intent.settled = false ∧
      ∀ destination ∈ intent.explicitVolumeDestinations, ∃ text, destination = digest text := by
  simp only [recordIntent, bind_eq_ok] at h
  obtain ⟨made, hmade, h⟩ := h
  split at h
  · cases h
  · cases h
    refine ⟨rfl, ?_⟩
    rw [creationIntent] at hmade
    split at hmade
    · cases hmade
    · split at hmade
      · dsimp only at hmade
        split_ifs at hmade
        · cases hmade
        · cases hmade
        · cases hmade
        · obtain ⟨owned, -, hmade⟩ := bind_eq_ok.mp hmade
          obtain ⟨binds, hbinds, hmade⟩ := bind_eq_ok.mp hmade
          obtain ⟨mounts, hmounts, hmade⟩ := bind_eq_ok.mp hmade
          cases hmade
          refine ⟨rfl, rfl, fun destination hdestination ↦ ?_⟩
          rcases List.mem_append.mp hdestination with hmem | hmem
          · exact bindDestinations_digests hbinds destination hmem
          · exact mountDestinations_digests hmounts destination hmem
      · cases hmade

end Creation

/-! ## The proxy -/

/-- The journal of a running proxy, its file, and the creations that are forwarded and not
answered. The parts of `handle` under the lock are single steps; between them anything happens
in the threads of other clients. -/
structure Proxy where
  memory : Journal
  file : Journal
  waiting : List Intent

/-- What happens in a proxy. A creation arrives and gets the identifier of a new UUID; a
forwarded creation ends, and the engine answers the inspections that follow. Either journal write
may fail. -/
inductive Event where
  | record (path : List Char) (body : Json) (operation : String) (saved : Bool)
  | answered (operation : String) (answer : Except DockerError Reply)
      (replies : List (Except DockerError Reply)) (saved : Bool)

namespace Proxy

def start (journal : Journal) : Proxy := ⟨journal, journal, []⟩

variable (digest : String → String)

/-- One step; an answer for a creation that is not forwarded, or with too few replies, is
none. -/
def step (s : Proxy) : Event → Option Proxy
  | .record path body operation saved =>
    match recordIntent digest s.memory operation path body with
    | .error _ => some s
    | .ok (_, none) => some s
    | .ok (journal, some intent) =>
      -- the intent stays in memory when it could not be written
      if saved then some ⟨journal, journal, s.waiting ++ [intent]⟩
      else some { s with memory := journal }
  | .answered operation answer replies saved =>
    match s.waiting.find? (·.id = operation) with
    | none => none
    | some intent =>
      let others := s.waiting.filter (·.id ≠ operation)
      match answer with
      | .error _ => some { s with waiting := others }
      | .ok reply =>
        if 200 ≤ reply.status ∧ reply.status < 300 then
          match (settleIntent digest s.memory intent reply.body).play replies with
          | none => none
          | some (.ok journal) =>
            some ⟨journal, if saved then journal else s.file, others⟩
          | some (.error (_, journal)) => some ⟨journal, s.file, others⟩
        else some { s with waiting := others }

def run (s : Proxy) (events : List Event) : Option Proxy :=
  events.foldlM (step digest) s

/-- A condition on every step of a run. -/
def Along (P : Proxy → Event → Prop) : Proxy → List Event → Prop
  | _, [] => True
  | s, event :: events => P s event ∧ ∀ next, step digest s event = some next → Along P next events

end Proxy

/-- The identifiers of the creations of a run. -/
def operations (events : List Event) : List String :=
  events.filterMap fun
    | .record _ _ operation _ => some operation
    | .answered .. => none

variable {digest : String → String}

/-- The journal keeps up: every write succeeds, and an intent that is no container's holds no
volumes. -/
def Keeps (digest : String → String) (s : Proxy) : Event → Prop
  | .record path body operation saved => ∀ journal intent,
      recordIntent digest s.memory operation path body = .ok (journal, some intent) →
      saved = true ∧ (intent.kind = .container ∨
        intent.explicitVolumeDestinations = [] ∧ intent.inheritsVolumes = false)
  | .answered _ _ _ saved => saved = true

/-- The engine acknowledged the creation with an identity, and what it made was captured. -/
def Acknowledged (digest : String → String) (s : Proxy) : Event → Prop
  | .record .. => True
  | .answered operation answer replies _ => ∃ intent reply id,
      s.waiting.find? (·.id = operation) = some intent ∧ answer = .ok reply ∧
      200 ≤ reply.status ∧ reply.status < 300 ∧ identityOf intent.kind reply.body = some id ∧
      Captured digest s.memory intent id replies

/-- What holds of a proxy whose journal keeps up. -/
structure Consistent (start : Journal) (s : Proxy) : Prop where
  memory : Served s.memory
  file : Served s.file
  written : s.file.intents = s.memory.intents
  owner : s.memory.host = start.host ∧ s.memory.attempt = start.attempt ∧
    s.file.host = start.host ∧ s.file.attempt = start.attempt
  waiting : ∀ intent ∈ s.waiting, intent ∈ s.memory.intents ∧ intent.settled = false

/-- An intent that is unsettled and waits for nothing. -/
def Abandoned (s : Proxy) : Prop :=
  ∃ intent ∈ s.memory.intents, intent.settled = false ∧ intent.id ∉ s.waiting.map (·.id)

theorem step_record {s next : Proxy} {path : List Char} {body : Json} {operation : String}
    {saved : Bool} (hkeeps : Keeps digest s (.record path body operation saved))
    (h : s.step digest (.record path body operation saved) = some next) :
    next = s ∨ ∃ intent, intent.id = operation ∧ intent.settled = false ∧
      (∀ destination ∈ intent.explicitVolumeDestinations, ∃ text, destination = digest text) ∧
      (intent.kind = .container ∨
        intent.explicitVolumeDestinations = [] ∧ intent.inheritsVolumes = false) ∧
      next = ⟨{ s.memory with intents := s.memory.intents ++ [intent] },
        { s.memory with intents := s.memory.intents ++ [intent] }, s.waiting ++ [intent]⟩ := by
  rw [Proxy.step] at h
  split at h
  · cases h
    exact .inl rfl
  · cases h
    exact .inl rfl
  · next journal intent hrecord =>
    obtain ⟨rfl, hkind⟩ := hkeeps journal intent hrecord
    obtain ⟨rfl, hid, hsettled, hdigests⟩ := recordIntent_ok hrecord
    rw [if_pos rfl, Option.some.injEq] at h
    exact .inr ⟨intent, hid, hsettled, hdigests, hkind, h.symm⟩

/-- What the end of a forwarded creation does to the proxy: its intent is settled, or no intent
changes. -/
theorem step_answered {start : Journal} {s next : Proxy} {operation : String}
    {answer : Except DockerError Reply} {replies : List (Except DockerError Reply)}
    (hs : Consistent start s)
    (h : s.step digest (.answered operation answer replies true) = some next) :
    next.waiting = s.waiting.filter (·.id ≠ operation) ∧
      ((Acknowledged digest s (.answered operation answer replies true) ∧
          Settled s.memory operation next.memory ∧ next.file = next.memory) ∨
        (¬ Acknowledged digest s (.answered operation answer replies true) ∧
          operation ∈ s.waiting.map (·.id) ∧ Grown s.memory next.memory ∧
          next.file = s.file)) := by
  have hsame : Grown s.memory s.memory := ⟨rfl, hs.memory.associations⟩
  rw [Proxy.step] at h
  split at h
  · cases h
  · next intent hfind =>
    have hmem := List.mem_of_find?_eq_some hfind
    have hid : intent.id = operation := by simpa using List.find?_some hfind
    have hwaits : operation ∈ s.waiting.map (·.id) := hid ▸ List.mem_map_of_mem hmem
    cases answer with
    | error e =>
      cases h
      refine ⟨rfl, .inr ⟨?_, hwaits, hsame, rfl⟩⟩
      rintro ⟨_, _, _, -, hnone, -⟩
      cases hnone
    | ok reply =>
      simp only at h
      split_ifs at h with hstatus
      · have hkeeps := @settleIntent_keeps digest intent s.memory hs.memory
          (hs.waiting intent hmem).1 reply.body
        split at h
        · cases h
        · next journal hplay =>
          cases h
          have hsettled : Settled s.memory intent.id journal :=
            Contract.of_play hkeeps hplay
          obtain ⟨id, hidentity, hcaptured⟩ := (settleIntent_play hs.memory
            (hs.waiting intent hmem).1 hplay).mp ⟨journal, rfl⟩
          exact ⟨rfl, .inl ⟨⟨intent, reply, id, hfind, rfl, hstatus.1, hstatus.2,
            hidentity, hcaptured⟩, hid ▸ hsettled, rfl⟩⟩
        · next e journal hplay =>
          cases h
          have hgrown : Grown s.memory journal := Contract.of_play hkeeps hplay
          refine ⟨rfl, .inr ⟨?_, hwaits, hgrown, rfl⟩⟩
          rintro ⟨other, answer, id, hother, hanswer, -, -, hidentity, hcaptured⟩
          cases hanswer
          rw [hfind] at hother
          cases hother
          obtain ⟨_, hok⟩ := (settleIntent_play hs.memory (hs.waiting intent hmem).1
            hplay).mpr ⟨id, hidentity, hcaptured⟩
          cases hok
      · cases h
        refine ⟨rfl, .inr ⟨?_, hwaits, hsame, rfl⟩⟩
        rintro ⟨_, other, _, -, hother, hlow, hhigh, -⟩
        cases hother
        exact hstatus ⟨hlow, hhigh⟩

/-- A new intent keeps the associations. -/
theorem Associations.append {intents : List Intent} {resources : List Resource} {intent : Intent}
    (h : Associations intents resources) (hoperation : validOperation intent.id = true)
    (hnew : intent.id ∉ intents.map (·.id)) (hkept : intent.wellKept = true) :
    Associations (intents ++ [intent]) resources := by
  refine ⟨?_, ?_, ?_, ?_, h.unique⟩
  · intro other hother
    rcases List.mem_append.mp hother with hmem | hmem
    · exact h.operations other hmem
    · rw [List.mem_singleton.mp hmem]
      exact hoperation
  · rw [List.map_append, List.nodup_append]
    refine ⟨h.distinct, by simp, ?_⟩
    intro id hid other hother heq
    rw [List.map_singleton, List.mem_singleton] at hother
    exact hnew (hother ▸ heq ▸ hid)
  · intro other hother
    rcases List.mem_append.mp hother with hmem | hmem
    · exact h.kept other hmem
    · rw [List.mem_singleton.mp hmem]
      exact hkept
  · intro resource hresource
    obtain ⟨hvalid, hown, hwell⟩ := h.identified resource hresource
    refine ⟨hvalid, hown, ?_⟩
    rw [Resource.wellKept] at hwell ⊢
    rw [List.find?_append]
    cases hfind : intents.find? (·.id = resource.operation) with
    | none => simp [hfind] at hwell
    | some own => simpa [hfind] using hwell

section Run

variable {start : Journal} {s next : Proxy}

/-- One step of a proxy whose journal keeps up. -/
theorem Consistent.step {event : Event} (hs : Consistent start s)
    (hdigest : ∀ text, validId (digest text) = true) (hkeeps : Keeps digest s event)
    (hvalid : ∀ id ∈ operations [event], validOperation id = true)
    (hfresh : ∀ id ∈ operations [event], id ∉ s.memory.intents.map (·.id))
    (h : s.step digest event = some next) :
    Consistent start next ∧ (Abandoned next ↔ Abandoned s ∨ ¬ Acknowledged digest s event) ∧
      ∀ id ∈ next.memory.intents.map (·.id),
        id ∈ s.memory.intents.map (·.id) ∨ id ∈ operations [event] := by
  cases event with
  | record path body operation saved =>
    rcases step_record hkeeps h with rfl | ⟨intent, rfl, hsettled, hdigests, hkind, rfl⟩
    · exact ⟨hs, by simp [Acknowledged], fun id hid ↦ .inl hid⟩
    · have hnew : intent.id ∉ s.memory.intents.map (·.id) :=
        hfresh intent.id (by simp [operations])
      have hwell : intent.wellKept = true := by
        rw [Intent.wellKept, Bool.and_eq_true, List.all_eq_true]
        refine ⟨fun destination hmem ↦ ?_, ?_⟩
        · obtain ⟨text, rfl⟩ := hdigests destination hmem
          exact hdigest text
        · rcases hkind with hkind | ⟨hnone, hinherits⟩
          · simp [hkind]
          · simp [hnone, hinherits]
      have hserved : Served { s.memory with intents := s.memory.intents ++ [intent] } :=
        ⟨hs.memory.schema, hs.memory.upstream, hs.memory.engine, hs.memory.proxy,
          hs.memory.associations.append (hvalid intent.id (by simp [operations])) hnew hwell⟩
      refine ⟨⟨hserved, hserved, rfl,
        ⟨hs.owner.1, hs.owner.2.1, hs.owner.1, hs.owner.2.1⟩, ?_⟩, ?_, ?_⟩
      · intro other hother
        rcases List.mem_append.mp hother with hmem | hmem
        · exact ⟨List.mem_append_left _ (hs.waiting other hmem).1, (hs.waiting other hmem).2⟩
        · rw [List.mem_singleton.mp hmem]
          exact ⟨by simp, hsettled⟩
      · -- the new intent waits, and no other has its identifier
        simp only [Acknowledged, not_true_eq_false, or_false]
        constructor
        · rintro ⟨other, hother, hunsettled, hnot⟩
          rw [List.map_append, List.mem_append, not_or] at hnot
          rcases List.mem_append.mp hother with hmem | hmem
          · exact ⟨other, hmem, hunsettled, hnot.1⟩
          · rw [List.mem_singleton.mp hmem] at hnot
            exact absurd (by simp) hnot.2
        · rintro ⟨other, hother, hunsettled, hnot⟩
          refine ⟨other, List.mem_append_left _ hother, hunsettled, ?_⟩
          rw [List.map_append, List.mem_append, not_or]
          refine ⟨hnot, ?_⟩
          rw [List.map_singleton, List.mem_singleton]
          intro heq
          exact hnew (heq ▸ List.mem_map_of_mem hother)
      · intro id hid
        simpa [operations] using hid
  | answered operation answer replies saved =>
    obtain rfl : saved = true := hkeeps
    obtain ⟨hwaiting, ⟨hack, hsettled, hfile⟩ | ⟨hnot, hwaits, hgrown, hfile⟩⟩ :=
      step_answered hs h
    · have hkeep : ∀ intent ∈ s.memory.intents, intent.id ≠ operation →
          intent ∈ next.memory.intents := by
        intro intent hintent hne
        rw [hsettled.intents]
        exact List.mem_map.mpr ⟨intent, hintent, if_neg hne⟩
      have hback : ∀ intent ∈ next.memory.intents, intent.settled = false →
          intent ∈ s.memory.intents ∧ intent.id ≠ operation := by
        intro intent hintent hunsettled
        rw [hsettled.intents] at hintent
        obtain ⟨own, hown, rfl⟩ := List.mem_map.mp hintent
        split_ifs at hunsettled ⊢ with heq
        exact ⟨hown, heq⟩
      have hwaits : operation ∈ s.waiting.map (·.id) := by
        obtain ⟨intent, _, _, hfind, -⟩ := hack
        have hid : intent.id = operation := by simpa using List.find?_some hfind
        exact hid ▸ List.mem_map_of_mem (List.mem_of_find?_eq_some hfind)
      refine ⟨⟨hsettled.served, hfile ▸ hsettled.served, by rw [hfile], ?_, ?_⟩, ?_, ?_⟩
      · rw [hfile, hsettled.owner.1, hsettled.owner.2]
        exact ⟨hs.owner.1, hs.owner.2.1, hs.owner.1, hs.owner.2.1⟩
      · intro intent hintent
        rw [hwaiting, List.mem_filter] at hintent
        obtain ⟨hmem, hunsettled⟩ := hs.waiting intent hintent.1
        exact ⟨hkeep intent hmem (by simpa using hintent.2), hunsettled⟩
      · simp only [hack, not_true_eq_false, or_false]
        constructor
        · rintro ⟨intent, hintent, hunsettled, hnot⟩
          obtain ⟨hmem, hne⟩ := hback intent hintent hunsettled
          refine ⟨intent, hmem, hunsettled, fun hwait ↦ hnot ?_⟩
          obtain ⟨own, hown, hid⟩ := List.mem_map.mp hwait
          rw [hwaiting]
          exact List.mem_map.mpr ⟨own, List.mem_filter.mpr ⟨hown, by simp [hid, hne]⟩, hid⟩
        · rintro ⟨intent, hintent, hunsettled, hnot⟩
          have hne : intent.id ≠ operation := fun heq ↦ hnot (heq ▸ hwaits)
          refine ⟨intent, hkeep intent hintent hne, hunsettled, fun hwait ↦ hnot ?_⟩
          rw [hwaiting] at hwait
          obtain ⟨own, hown, hid⟩ := List.mem_map.mp hwait
          exact List.mem_map.mpr ⟨own, (List.mem_filter.mp hown).1, hid⟩
      · intro id hid
        rw [hsettled.intents, settledAt, List.map_map] at hid
        obtain ⟨intent, hintent, rfl⟩ := List.mem_map.mp hid
        refine .inl (List.mem_map.mpr ⟨intent, hintent, ?_⟩)
        simp only [Function.comp]
        split_ifs <;> rfl
    · refine ⟨⟨hgrown.served hs.memory, hfile ▸ hs.file, ?_, ?_, ?_⟩, ?_, ?_⟩
      · rw [hfile, hgrown.intents]
        exact hs.written
      · rw [hfile, hgrown.same]
        exact hs.owner
      · intro intent hintent
        rw [hwaiting, List.mem_filter] at hintent
        rw [hgrown.intents]
        exact hs.waiting intent hintent.1
      · -- the intent is unsettled, and waits no longer
        refine iff_of_true ?_ (.inr hnot)
        obtain ⟨intent, hintent, rfl⟩ := List.mem_map.mp hwaits
        obtain ⟨hmem, hunsettled⟩ := hs.waiting intent hintent
        refine ⟨intent, hgrown.intents ▸ hmem, hunsettled, ?_⟩
        rw [hwaiting]
        simp
      · intro id hid
        rw [hgrown.intents] at hid
        exact .inl hid

/-- Along a run whose journal keeps up, every intent ends settled exactly when every creation was
acknowledged and none is still forwarded. -/
theorem Consistent.run {events : List Event} {last : Proxy} (hs : Consistent start s)
    (hdigest : ∀ text, validId (digest text) = true)
    (hkeeps : Proxy.Along digest (Keeps digest) s events)
    (hvalid : ∀ id ∈ operations events, validOperation id = true)
    (hdistinct : (operations events).Nodup)
    (hfresh : ∀ id ∈ operations events, id ∉ s.memory.intents.map (·.id))
    (h : s.run digest events = some last) :
    Consistent start last ∧ ((∀ intent ∈ last.memory.intents, intent.settled = true) ↔
      ¬ Abandoned s ∧ Proxy.Along digest (Acknowledged digest) s events ∧ last.waiting = []) := by
  induction events generalizing s with
  | nil =>
    cases h
    refine ⟨hs, fun hall ↦ ⟨?_, trivial, ?_⟩, ?_⟩
    · rintro ⟨intent, hintent, hunsettled, -⟩
      simp [hall intent hintent] at hunsettled
    · refine List.eq_nil_iff_forall_not_mem.mpr fun intent hintent ↦ ?_
      obtain ⟨hmem, hunsettled⟩ := hs.waiting intent hintent
      simp [hall intent hmem] at hunsettled
    · rintro ⟨hnone, -, hempty⟩ intent hintent
      by_contra hunsettled
      exact hnone ⟨intent, hintent, by simpa using hunsettled, by simp [hempty]⟩
  | cons event events ih =>
    obtain ⟨next, hnext, hrest⟩ := Option.bind_eq_some_iff.mp h
    have hsplit : operations (event :: events) = operations [event] ++ operations events := by
      rw [operations, operations, operations, ← List.filterMap_append, List.singleton_append]
    rw [hsplit] at hvalid hdistinct hfresh
    rw [List.nodup_append] at hdistinct
    obtain ⟨hstep, habandoned, hids⟩ := hs.step hdigest hkeeps.1
      (fun id hid ↦ hvalid id (List.mem_append_left _ hid))
      (fun id hid ↦ hfresh id (List.mem_append_left _ hid)) hnext
    obtain ⟨hlast, hiff⟩ := ih hstep (hkeeps.2 next hnext)
      (fun id hid ↦ hvalid id (List.mem_append_right _ hid)) hdistinct.2.1
      (fun id hid hmem ↦ (hids id hmem).elim (hfresh id (List.mem_append_right _ hid))
        fun hown ↦ hdistinct.2.2 id hown id hid rfl) hrest
    refine ⟨hlast, hiff.trans ?_⟩
    rw [habandoned, not_or, not_not]
    constructor
    · rintro ⟨⟨hnone, hack⟩, halong, hempty⟩
      refine ⟨hnone, ⟨hack, fun other hother ↦ ?_⟩, hempty⟩
      rw [hnext, Option.some.injEq] at hother
      exact hother ▸ halong
    · rintro ⟨hnone, ⟨hack, halong⟩, hempty⟩
      exact ⟨⟨hnone, hack⟩, halong next hnext, hempty⟩

end Run

end RunnerManager.Agent.DockerCleanup
