import RunnerManager.Agent.Providers
import RunnerManager.Agent.Supervision

/-!
# What a provider's answers rest on

The container runtime may answer every command with anything. A record of the answered commands
is kept, and each answer of a provider is traced back to a command in it: an environment that is
missing to a report of its absence, an owned one to its labels, a `stop` or `rm` to the labels
read before it. Read `ConcreteProvider.ReportsAbsent` first, then `ConcreteProvider.Legible` for
what the provider of Windows containers relies on. `serve` puts a provider under the launcher.
-/

namespace RunnerManager.Agent

open RunnerManager.Domain RunnerManager.Text
open Contract (wp_along wp_bind wp_interpret wp_mapCalls wp_mono wp_ofExcept wp_outcome
  wp_outcome_seq wp_runs wp_seq)

/-! ## Reports -/

/-- The command stops or removes a container. -/
def RuntimeCommand.Touches (c : RuntimeCommand) : Prop :=
  c.args.head? = some "stop" ∨ c.args.head? = some "rm"

abbrev CommandRecord := List (RuntimeCommand × CommandAnswer)

/-- The providers of isolated environments. -/
inductive ConcreteProvider where
  | oci (processes : OciProcesses) (native : NativeAnswers)
  | hyperV (host : HostId)

namespace Oci

variable (lib : Decoders) (oci : OciProcesses)

/-- The runtime reported that there is no container of the journalled id, or, where no id is
journalled, none with the attempt's labels. -/
def ReportsAbsent (attempt : RunnerAttempt) (c : RuntimeCommand) (answer : CommandAnswer) : Prop :=
  ∃ found, answer = .ok found ∧
    match attempt.execution with
    | .isolated _ (some id) _ _ => c = ⟨oci.runtime, existsArgs id⟩ ∧ found.code = some 1
    | .isolated _ none _ generation =>
      c = ⟨oci.runtime, listArgs oci attempt generation⟩ ∧ found.success = true ∧
        ∃ text, lib.fromUtf8 found.stdout = some text ∧ trim text.toList = []
    | .native _ => False

/-- The container of the journalled id has the attempt's labels. -/
def ReportsOwned (attempt : RunnerAttempt) (c : RuntimeCommand) (answer : CommandAnswer) : Prop :=
  ∃ id backend image generation labels,
    attempt.execution = .isolated backend (some id) image generation ∧
      c = ⟨oci.runtime, labelsArgs id⟩ ∧ readLabels lib answer = .ok labels ∧
      labelOf labels hostLabel = some (uuidText oci.host.value) ∧
      labelOf labels attemptLabel = some (uuidText attempt.id.value) ∧
      labelOf labels generationLabel = some generation ∧
      labelOf labels imageLabel = some image.reference

end Oci

namespace HyperV

variable (lib : Decoders) (host : HostId)

/-- The command asks for the record of the attempt's container. -/
def Asks (attempt : RunnerAttempt) (c : RuntimeCommand) : Prop :=
  ∃ expected, expectedRecord host attempt = some expected ∧
    c = ⟨"docker", inspectArgs expected.name⟩

def lineOf (found : ProcessOutput) : String :=
  trimmed (CommandResult.fromOutput lib found).stdout

/-- The runtime reported that there is no container of the attempt's name. -/
def ReportsAbsent (attempt : RunnerAttempt) (c : RuntimeCommand) (answer : CommandAnswer) : Prop :=
  Asks host attempt c ∧ ∃ found, answer = .ok found ∧ found.success = false ∧
    (CommandResult.fromOutput lib found).isMissingResource = true

/-- The container of the attempt's name has the attempt's labels. -/
def ReportsOwned (attempt : RunnerAttempt) (c : RuntimeCommand) (answer : CommandAnswer) : Prop :=
  Asks host attempt c ∧ ∃ found backend id image generation record,
    attempt.execution = .isolated backend id image generation ∧ answer = .ok found ∧
      found.success = true ∧ ResourceRecord.parse lib (lineOf lib found) = some record ∧
      record.host = host ∧ record.attempt = attempt.id ∧ record.generation = generation ∧
      record.image = image

/-- A container of the attempt's name that is shown is shown with labels that can be read. -/
def Legible (attempt : RunnerAttempt) (c : RuntimeCommand) (answer : CommandAnswer) : Prop :=
  Asks host attempt c → ∀ found, answer = .ok found → found.success = true →
    (ResourceRecord.parse lib (lineOf lib found)).isSome = true

end HyperV

namespace ConcreteProvider

variable (lib : Decoders)

def operations : ConcreteProvider → ExecutionProvider
  | oci processes native => ociProvider lib processes native
  | hyperV host => hyperVProvider lib host

/-- The runtime reported that the attempt's container does not exist. -/
def ReportsAbsent : ConcreteProvider → RunnerAttempt → RuntimeCommand → CommandAnswer → Prop
  | oci processes _ => Oci.ReportsAbsent lib processes
  | hyperV host => HyperV.ReportsAbsent lib host

/-- The runtime reported a container with the attempt's labels. -/
def ReportsOwned : ConcreteProvider → RunnerAttempt → RuntimeCommand → CommandAnswer → Prop
  | oci processes _ => Oci.ReportsOwned lib processes
  | hyperV host => HyperV.ReportsOwned lib host

/-- Only the provider of Windows containers relies on what is printed. -/
def Legible : ConcreteProvider → RunnerAttempt → RuntimeCommand → CommandAnswer → Prop
  | oci _ _ => fun _ _ _ ↦ True
  | hyperV host => HyperV.Legible lib host

variable (provider : ConcreteProvider) (attempt : RunnerAttempt)

/-- The record shows that the attempt's container does not exist. -/
def ShowsAbsent (record : CommandRecord) : Prop :=
  ∃ entry ∈ record, provider.ReportsAbsent lib attempt entry.1 entry.2

/-- The record shows a container with the attempt's labels. -/
def ShowsOwned (record : CommandRecord) : Prop :=
  ∃ entry ∈ record, provider.ReportsOwned lib attempt entry.1 entry.2

/-- Commands about one attempt: a container is touched only once it was shown to be owned. -/
def commandContract : Contract RuntimeCommand (fun _ ↦ CommandAnswer) CommandRecord where
  requires record c := c.Touches → provider.ShowsOwned lib attempt record
  steps record c answer next :=
    provider.Legible lib attempt c answer ∧ next = record ++ [(c, answer)]

end ConcreteProvider

/-! ## Rules -/

section Rules

variable {lib : Decoders} {provider : ConcreteProvider} {attempt : RunnerAttempt}
  {record : CommandRecord} {ε α : Type} {Q : Except ε α → CommandRecord → Prop}

open ConcreteProvider

theorem ConcreteProvider.ShowsOwned.append (h : provider.ShowsOwned lib attempt record)
    (more : CommandRecord) : provider.ShowsOwned lib attempt (record ++ more) := by
  obtain ⟨entry, hmem, howned⟩ := h
  exact ⟨entry, List.mem_append_left more hmem, howned⟩

theorem command_wp {c : RuntimeCommand} {f : CommandAnswer → CommandProgram ε α}
    (hrequires : c.Touches → provider.ShowsOwned lib attempt record)
    (hnext : ∀ answer, provider.Legible lib attempt c answer →
      (provider.commandContract lib attempt).wp (f answer) Q (record ++ [(c, answer)])) :
    (provider.commandContract lib attempt).wp (.perform c >>= f) Q record := by
  refine (wp_bind _ _).mpr ⟨hrequires, ?_⟩
  rintro answer next ⟨hlegible, rfl⟩
  exact hnext answer hlegible

theorem look_wp {program verb : String} {args : List String}
    {f : CommandAnswer → CommandProgram ε α} (hlooks : verb ≠ "stop" ∧ verb ≠ "rm")
    (hnext : ∀ answer, provider.Legible lib attempt ⟨program, verb :: args⟩ answer →
      (provider.commandContract lib attempt).wp (f answer) Q
        (record ++ [(⟨program, verb :: args⟩, answer)])) :
    (provider.commandContract lib attempt).wp (.perform ⟨program, verb :: args⟩ >>= f) Q
      record := by
  refine command_wp (fun htouches ↦ ?_) hnext
  rcases htouches with hstop | hremove
  · exact absurd (Option.some.inj hstop) hlooks.1
  · exact absurd (Option.some.inj hremove) hlooks.2

end Rules

/-! ## Podman -/

namespace Oci

section Specs

variable {lib : Decoders} {oci : OciProcesses} {native : NativeAnswers} {attempt : RunnerAttempt}
  {record : CommandRecord}

/-- The record of the answered commands about an attempt. -/
abbrev contract (lib : Decoders) (oci : OciProcesses) (native : NativeAnswers)
    (attempt : RunnerAttempt) : Contract RuntimeCommand (fun _ ↦ CommandAnswer) CommandRecord :=
  (ConcreteProvider.oci oci native).commandContract lib attempt

theorem environmentId_ok {id : String} (h : environmentId attempt = .ok id) :
    ∃ image generation, attempt.execution = .isolated .oci (some id) image generation := by
  unfold environmentId at h
  split at h
  · cases h
    exact ⟨_, _, by assumption⟩
  · cases h

theorem of_printed {answer : CommandAnswer} {text : String} (h : printed lib answer = .ok text) :
    ∃ found, answer = .ok found ∧ found.success = true ∧
      lib.fromUtf8 found.stdout = some text := by
  cases answer with
  | error _ => cases h
  | ok found =>
    unfold printed at h
    dsimp only at h
    split_ifs at h with hrefused
    split at h
    · rename_i htext
      cases h
      simp only [Bool.or_eq_true, Bool.not_eq_true', not_or] at hrefused
      exact ⟨found, rfl, Bool.eq_true_of_not_eq_false hrefused.1, htext⟩
    · cases h

theorem output_wp {verb : String} {args : List String}
    {Q : Except FailureReason String → CommandRecord → Prop}
    (hlooks : verb ≠ "stop" ∧ verb ≠ "rm")
    (hnext : ∀ answer, Q (printed lib answer) (record ++ [(⟨oci.runtime, verb :: args⟩, answer)])) :
    (contract lib oci native attempt).wp (output lib oci (verb :: args)) Q record := by
  unfold output command
  refine look_wp hlooks fun answer _ ↦ (wp_ofExcept _ _).mpr ?_
  have hprinted := hnext answer
  revert hprinted
  cases printed lib answer <;> exact fun h ↦ h

theorem containerExists_wp {id : String} :
    (contract lib oci native attempt).wp (containerExists oci id)
      (fun result next ↦ result = .ok false → ∃ found : ProcessOutput, found.code = some 1 ∧
        (⟨oci.runtime, existsArgs id⟩, .ok found) ∈ next) record := by
  refine look_wp (by decide) fun answer _ ↦ ?_
  cases answer with
  | error _ => exact fun h ↦ nomatch h
  | ok found =>
    dsimp only
    split
    · exact fun h ↦ nomatch h
    · rename_i hcode
      exact fun _ ↦ ⟨found, hcode, List.mem_append_right _ (List.mem_singleton_self _)⟩
    · exact fun h ↦ nomatch h

theorem reportsOwned_of_labels {id : String} {image : ImageReference} {generation : String}
    {answer : CommandAnswer} {labels : List (String × String)}
    (hexecution : attempt.execution = .isolated .oci (some id) image generation)
    (hread : readLabels lib answer = .ok labels) (howned : ownedLabels oci labels attempt = true) :
    ReportsOwned lib oci attempt ⟨oci.runtime, labelsArgs id⟩ answer := by
  unfold ownedLabels matchesAttemptLabels at howned
  simp only [hexecution, Bool.and_eq_true, decide_eq_true_eq] at howned
  obtain ⟨⟨⟨hhost, hattempt⟩, hgeneration⟩, himage⟩ := howned
  exact ⟨id, .oci, image, generation, labels, hexecution, rfl, hread, hhost, hattempt,
    hgeneration, himage⟩

theorem checkOwnership_wp :
    (contract lib oci native attempt).wp (checkOwnership lib oci attempt)
      (fun result next ↦ result = .ok true →
        (ConcreteProvider.oci oci native).ShowsOwned lib attempt next) record := by
  refine (wp_bind _ _).mpr ((wp_ofExcept _ _).mpr ?_)
  cases hid : environmentId attempt with
  | error _ => exact fun h ↦ nomatch h
  | ok id =>
    obtain ⟨image, generation, hexecution⟩ := environmentId_ok hid
    refine (wp_bind _ _).mpr (look_wp (by decide) fun answer _ ↦ ?_)
    refine (wp_ofExcept _ _).mpr ?_
    cases hread : readLabels lib answer with
    | error _ => exact fun h ↦ nomatch h
    | ok labels =>
      intro howned
      refine ⟨_, List.mem_append_right _ (List.mem_singleton_self _), ?_⟩
      exact reportsOwned_of_labels hexecution hread (Except.ok.inj howned)

theorem readState_ne (status : String) : (readState status).mapError id ≠ .ok .missing := by
  unfold readState
  split
  · exact fun h ↦ nomatch h
  · split
    · exact fun h ↦ nomatch h
    · split
      · exact fun h ↦ nomatch h
      · exact fun h ↦ nomatch h

theorem state_wp :
    (contract lib oci native attempt).wp (state lib oci attempt)
      (fun result next ↦ result = .ok .missing →
        (ConcreteProvider.oci oci native).ShowsAbsent lib attempt next) record := by
  unfold state
  refine (wp_bind _ _).mpr ((wp_ofExcept _ _).mpr ?_)
  cases hid : environmentId attempt with
  | error _ => exact fun h ↦ nomatch h
  | ok id =>
    obtain ⟨image, generation, hexecution⟩ := environmentId_ok hid
    refine wp_seq containerExists_wp ?_ fun _ _ _ h ↦ nomatch h
    intro found next hfound
    cases found with
    | false =>
      obtain ⟨output, hcode, hmem⟩ := hfound rfl
      refine fun _ ↦ ⟨_, hmem, output, rfl, ?_⟩
      simp only [hexecution, hcode, and_self]
    | true =>
      refine wp_seq checkOwnership_wp ?_ fun _ _ _ h ↦ nomatch h
      intro owned next _
      cases owned with
      | false => exact fun h ↦ nomatch h
      | true =>
        refine wp_seq (R := fun _ _ ↦ True) (output_wp (by decide) fun _ ↦ trivial)
          (fun status next _ ↦ ?_) fun _ _ _ h ↦ nomatch h
        refine (wp_ofExcept _ _).mpr fun hmissing ↦ ?_
        exact absurd hmissing (readState_ne status)

theorem inspect_wp (hisolated : attempt.execution.isNative = false) :
    (contract lib oci native attempt).wp (inspect lib oci native attempt)
      (fun result next ↦ result = .ok .missing →
        (ConcreteProvider.oci oci native).ShowsAbsent lib attempt next) record := by
  unfold inspect
  rw [hisolated]
  exact state_wp

theorem recover_wp (hisolated : attempt.execution.isNative = false) :
    (contract lib oci native attempt).wp (recover lib oci native attempt)
      (fun result next ↦ result = .ok .missing →
        (ConcreteProvider.oci oci native).ShowsAbsent lib attempt next) record := by
  unfold recover
  split
  · rename_i backend image generation hexecution
    refine (wp_bind _ _).mpr (output_wp (by decide) fun answer ↦ ?_)
    cases hprinted : printed lib answer with
    | error _ => exact fun h ↦ nomatch h
    | ok ids =>
      dsimp only
      split_ifs with hempty
      · obtain ⟨found, rfl, hsuccess, htext⟩ := of_printed hprinted
        refine fun _ ↦ ⟨_, List.mem_append_right _ (List.mem_singleton_self _), found, rfl, ?_⟩
        simp only [hexecution]
        exact ⟨rfl, hsuccess, ids, htext, hempty⟩
      · exact fun h ↦ nomatch h
  · exact inspect_wp hisolated

theorem owns_wp (hisolated : attempt.execution.isNative = false) :
    (contract lib oci native attempt).wp (owns lib oci attempt)
      (fun result next ↦ result = .ok true →
        (ConcreteProvider.oci oci native).ShowsOwned lib attempt next) record := by
  unfold owns
  rw [hisolated]
  refine (wp_bind _ _).mpr ((wp_ofExcept _ _).mpr ?_)
  cases environmentId attempt with
  | error _ => exact fun h ↦ nomatch h
  | ok id =>
    refine wp_seq containerExists_wp ?_ fun _ _ _ h ↦ nomatch h
    intro found next _
    cases found with
    | false => exact fun h ↦ nomatch h
    | true => exact checkOwnership_wp

theorem failCapabilityOr_wp {α : Type} {reason : FailureReason} :
    (contract lib oci native attempt).wp (failCapabilityOr lib oci reason : RuntimeProgram α)
      (fun _ _ ↦ True) record := by
  refine wp_seq (R := fun _ _ ↦ True) ?_ (fun _ _ _ ↦ trivial) fun _ _ _ ↦ trivial
  unfold rootlessReadyFor
  split_ifs
  · trivial
  · trivial
  · refine look_wp (by decide) fun answer _ ↦ ?_
    split
    · trivial
    · trivial
    · dsimp only
      split_ifs
      · trivial
      · split
        · trivial
        · split
          · trivial
          · refine look_wp (by decide) fun probe _ ↦ ?_
            split
            · trivial
            · split_ifs
              · trivial
              · split
                · trivial
                · split_ifs <;> trivial

theorem status_wp {args : List String}
    (howned : (ConcreteProvider.oci oci native).ShowsOwned lib attempt record) :
    (contract lib oci native attempt).wp (status oci args) (fun _ _ ↦ True) record := by
  refine command_wp (fun _ ↦ howned) fun answer _ ↦ ?_
  split
  · trivial
  · split_ifs <;> trivial

theorem touch_wp {α : Type} {args : List String} {value : α} :
    (contract lib oci native attempt).wp (do
      if !(← checkOwnership lib oci attempt) then .fail ownershipFailure
      else
        match ← (status oci args).outcome with
        | .ok _ => return value
        | .error reason => failCapabilityOr lib oci reason) (fun _ _ ↦ True) record := by
  refine wp_seq checkOwnership_wp ?_ fun _ _ _ ↦ trivial
  intro owned next howned
  cases owned with
  | false => trivial
  | true =>
    refine wp_outcome_seq (status_wp (howned rfl)) ?_
    intro result next _
    cases result with
    | ok _ => trivial
    | error reason => exact failCapabilityOr_wp

theorem stop_wp (hisolated : attempt.execution.isNative = false) :
    (contract lib oci native attempt).wp (stop lib oci native attempt) (fun _ _ ↦ True)
      record := by
  unfold stop
  rw [hisolated]
  refine (wp_bind _ _).mpr ((wp_ofExcept _ _).mpr ?_)
  cases environmentId attempt with
  | error _ => trivial
  | ok id =>
    refine wp_seq containerExists_wp ?_ fun _ _ _ ↦ trivial
    intro found next _
    cases found with
    | false => trivial
    | true =>
      refine wp_seq state_wp ?_ fun _ _ _ ↦ trivial
      intro seen next _
      show Contract.wp _ (if _ then _ else _) _ _
      split_ifs
      · trivial
      · exact touch_wp

theorem destroy_wp (hisolated : attempt.execution.isNative = false) :
    (contract lib oci native attempt).wp (destroy lib oci native attempt) (fun _ _ ↦ True)
      record := by
  unfold destroy
  rw [hisolated]
  refine (wp_bind _ _).mpr ((wp_ofExcept _ _).mpr ?_)
  cases environmentId attempt with
  | error _ => trivial
  | ok id =>
    refine wp_seq containerExists_wp ?_ fun _ _ _ ↦ trivial
    intro found next _
    cases found with
    | false => trivial
    | true => exact touch_wp

theorem identify_wp {host : HostId} (ids : List (List Char)) :
    (contract lib oci native attempt).wp (identify lib oci host ids) (fun _ _ ↦ True) record := by
  induction ids generalizing record with
  | nil => trivial
  | cons line rest ih =>
    unfold identify
    split_ifs
    · exact ih
    · refine (wp_bind _ _).mpr ((wp_outcome _).mpr
        (look_wp (by decide) fun answer _ ↦ ?_))
      refine (wp_ofExcept _ _).mpr ?_
      cases readLabels lib answer with
      | error _ => exact ih
      | ok labels => exact wp_seq ih (fun _ _ _ ↦ trivial) fun _ _ _ ↦ trivial

theorem enumerateOwned_wp {host : HostId} :
    (contract lib oci native attempt).wp (enumerateOwned lib oci host) (fun _ _ ↦ True)
      record := by
  unfold enumerateOwned
  split_ifs
  · trivial
  · refine (wp_bind _ _).mpr ((wp_outcome _).mpr
      (output_wp (by decide) fun answer ↦ ?_))
    cases printed lib answer with
    | error _ => trivial
    | ok ids => exact identify_wp _

end Specs

end Oci

/-! ## Windows containers -/

namespace HyperV

section Specs

variable {lib : Decoders} {host : HostId} {attempt : RunnerAttempt} {record : CommandRecord}
  {expected : ResourceRecord}

/-- The record of the answered commands about an attempt. -/
abbrev contract (lib : Decoders) (host : HostId) (attempt : RunnerAttempt) :
    Contract RuntimeCommand (fun _ ↦ CommandAnswer) CommandRecord :=
  (ConcreteProvider.hyperV host).commandContract lib attempt

/-- What an answered inspection reads as. -/
def seen (lib : Decoders) (answer : CommandAnswer) :
    Except CommandFailure (Option ResourceRecord) :=
  readRecord lib (ran lib answer)

theorem inspectRecord_wp {ε α : Type} {name : String}
    {f : Except CommandFailure (Option ResourceRecord) → CommandProgram ε α}
    {Q : Except ε α → CommandRecord → Prop}
    (hnext : ∀ answer, Legible lib host attempt ⟨"docker", inspectArgs name⟩ answer →
      (contract lib host attempt).wp (f (seen lib answer)) Q
        (record ++ [(⟨"docker", inspectArgs name⟩, answer)])) :
    (contract lib host attempt).wp (inspectRecord lib name >>= f) Q record :=
  (wp_bind _ _).mpr ((wp_bind _ _).mpr (look_wp (by decide) hnext))

theorem seen_none_iff {answer : CommandAnswer} :
    seen lib answer = .ok none ↔ ∃ found, answer = .ok found ∧
      (found.success = false ∧ (CommandResult.fromOutput lib found).isMissingResource = true ∨
        found.success = true ∧ ResourceRecord.parse lib (lineOf lib found) = none) := by
  cases answer with
  | error reason => cases reason <;> simp [seen, ran, readRecord]
  | ok found =>
    have hsuccess : (CommandResult.fromOutput lib found).success = found.success := rfl
    unfold seen ran readRecord
    simp only [Except.ok.injEq, exists_eq_left']
    rw [hsuccess]
    cases found.success with
    | true => simp [lineOf]
    | false =>
      cases (CommandResult.fromOutput lib found).isMissingResource <;> simp

theorem of_seen {answer : CommandAnswer} {found : ResourceRecord}
    (h : seen lib answer = .ok (some found)) :
    ∃ output, answer = .ok output ∧ output.success = true ∧
      ResourceRecord.parse lib (lineOf lib output) = some found := by
  cases answer with
  | error reason => cases reason <;> cases h
  | ok output =>
    have hsuccess : (CommandResult.fromOutput lib output).success = output.success := rfl
    unfold seen ran readRecord at h
    dsimp only at h
    rw [hsuccess] at h
    cases hended : output.success with
    | true =>
      simp only [hended, Bool.not_true, Bool.false_eq_true, if_false] at h
      exact ⟨output, rfl, hended, Except.ok.inj h⟩
    | false =>
      simp only [hended, Bool.not_false, if_true] at h
      split_ifs at h
      cases h

theorem reported_iff_legible (hexpected : expectedRecord host attempt = some expected)
    (answer : CommandAnswer) :
    (seen lib answer = .ok none →
      ReportsAbsent lib host attempt ⟨"docker", inspectArgs expected.name⟩ answer) ↔
      Legible lib host attempt ⟨"docker", inspectArgs expected.name⟩ answer := by
  have hasks : Asks host attempt ⟨"docker", inspectArgs expected.name⟩ :=
    ⟨expected, hexpected, rfl⟩
  constructor
  · rintro hreported - found rfl hsuccess
    rw [Option.isSome_iff_ne_none]
    intro hunread
    obtain ⟨-, output, houtput, hfailed, -⟩ :=
      hreported (seen_none_iff.mpr ⟨found, rfl, .inr ⟨hsuccess, hunread⟩⟩)
    cases houtput
    rw [hsuccess] at hfailed
    cases hfailed
  · intro hlegible hnone
    obtain ⟨found, rfl, ⟨hfailed, hmissing⟩ | ⟨hsuccess, hunread⟩⟩ := seen_none_iff.mp hnone
    · exact ⟨hasks, found, rfl, hfailed, hmissing⟩
    · have hread := hlegible hasks found rfl hsuccess
      rw [hunread] at hread
      cases hread

theorem of_expected (hexpected : expectedRecord host attempt = some expected) :
    ∃ id, attempt.execution =
        .isolated .windowsHyperVContainer id expected.image expected.generation ∧
      expected.host = host ∧ expected.attempt = attempt.id := by
  unfold expectedRecord at hexpected
  split at hexpected
  · cases hexpected
    exact ⟨_, by assumption, rfl, rfl⟩
  · cases hexpected

theorem reportsOwned_of_seen (hexpected : expectedRecord host attempt = some expected)
    {answer : CommandAnswer} {found : ResourceRecord} (hseen : seen lib answer = .ok (some found))
    (hsame : found.sameOwner expected = true) :
    ReportsOwned lib host attempt ⟨"docker", inspectArgs expected.name⟩ answer := by
  obtain ⟨output, rfl, hsuccess, hparsed⟩ := of_seen hseen
  obtain ⟨id, hexecution, hhost, hattempt⟩ := of_expected hexpected
  unfold ResourceRecord.sameOwner at hsame
  simp only [Bool.and_eq_true, decide_eq_true_eq] at hsame
  obtain ⟨⟨⟨⟨-, hsameHost⟩, hsameAttempt⟩, hgeneration⟩, himage⟩ := hsame
  exact ⟨⟨expected, hexpected, rfl⟩, output, _, id, expected.image, expected.generation, found,
    hexecution, rfl, hsuccess, hparsed, hsameHost.trans hhost, hsameAttempt.trans hattempt,
    hgeneration, himage⟩

theorem inspect_wp :
    (contract lib host attempt).wp (inspect lib host attempt)
      (fun result next ↦ result = .ok .missing →
        (ConcreteProvider.hyperV host).ShowsAbsent lib attempt next) record := by
  unfold inspect
  cases hexpected : expectedRecord host attempt with
  | none => exact fun h ↦ nomatch h
  | some expected =>
    refine inspectRecord_wp fun answer hlegible ↦ ?_
    split
    · exact fun h ↦ nomatch h
    · rename_i hnone
      refine fun _ ↦ ⟨_, List.mem_append_right _ (List.mem_singleton_self _), ?_⟩
      exact (reported_iff_legible hexpected answer).mpr hlegible hnone
    · rename_i found hseen
      split_ifs
      · exact fun h ↦ nomatch h
      · unfold stateOf
        split_ifs <;> exact fun h ↦ nomatch h

theorem inspect_exact {c : RuntimeCommand} {next : CommandAnswer → RuntimeProgram EnvironmentState}
    (hinspect : inspect lib host attempt = .ask c next) (answer : CommandAnswer) :
    (next answer = .done (.ok .missing) → ReportsAbsent lib host attempt c answer) ↔
      Legible lib host attempt c answer := by
  unfold inspect at hinspect
  cases hexpected : expectedRecord host attempt with
  | none =>
    rw [hexpected] at hinspect
    cases hinspect
  | some expected =>
    rw [hexpected] at hinspect
    cases hinspect
    refine Iff.trans (imp_congr ?_ Iff.rfl) (reported_iff_legible hexpected answer)
    show Program.andThen (.done (.ok (seen lib answer))) _ = _ ↔ _
    cases seen lib answer with
    | error _ => exact ⟨fun h ↦ (nomatch h), fun h ↦ (nomatch h)⟩
    | ok found =>
      cases found with
      | none => exact ⟨fun _ ↦ rfl, fun _ ↦ rfl⟩
      | some record =>
        refine ⟨fun h ↦ ?_, fun h ↦ (nomatch h)⟩
        exfalso
        revert h
        show (if _ then _ else _) = _ → False
        unfold stateOf
        split_ifs <;> exact fun h ↦ nomatch h

theorem owns_wp :
    (contract lib host attempt).wp (owns lib host attempt)
      (fun result next ↦ result = .ok true →
        (ConcreteProvider.hyperV host).ShowsOwned lib attempt next) record := by
  unfold owns
  cases hexpected : expectedRecord host attempt with
  | none => exact fun h ↦ nomatch h
  | some expected =>
    refine inspectRecord_wp fun answer _ ↦ ?_
    split
    · exact fun h ↦ nomatch h
    · exact fun h ↦ nomatch h
    · rename_i found hseen
      intro hsame
      refine ⟨_, List.mem_append_right _ (List.mem_singleton_self _), ?_⟩
      exact reportsOwned_of_seen hexpected hseen (Except.ok.inj hsame)

theorem docker_wp {α : Type} {args : List String}
    {f : Except CommandFailure CommandResult → RuntimeProgram α}
    (howned : (ConcreteProvider.hyperV host).ShowsOwned lib attempt record)
    (hnext : ∀ result next,
      (contract lib host attempt).wp (f result) (fun _ _ ↦ True) next) :
    (contract lib host attempt).wp (docker lib args >>= f) (fun _ _ ↦ True) record :=
  (wp_bind _ _).mpr (command_wp (fun _ ↦ howned) fun _ _ ↦ hnext _ _)

theorem stop_wp :
    (contract lib host attempt).wp (stop lib host attempt) (fun _ _ ↦ True) record := by
  unfold stop
  cases hexpected : expectedRecord host attempt with
  | none => trivial
  | some expected =>
    refine wp_seq owns_wp ?_ fun _ _ _ ↦ trivial
    intro owned next howned
    cases owned with
    | false =>
      refine inspectRecord_wp fun answer _ ↦ ?_
      split_ifs <;> trivial
    | true =>
      refine inspectRecord_wp fun answer _ ↦ ?_
      split_ifs
      · trivial
      · refine docker_wp ((howned rfl).append _) fun result next ↦ ?_
        split
        · trivial
        · split_ifs <;> trivial

theorem destroy_wp :
    (contract lib host attempt).wp (destroy lib host attempt) (fun _ _ ↦ True) record := by
  unfold destroy
  cases hexpected : expectedRecord host attempt with
  | none => trivial
  | some expected =>
    refine wp_seq owns_wp ?_ fun _ _ _ ↦ trivial
    intro owned next howned
    cases owned with
    | false =>
      refine inspectRecord_wp fun answer _ ↦ ?_
      split_ifs <;> trivial
    | true =>
      refine docker_wp (howned rfl) fun result next ↦ ?_
      split
      · trivial
      · split_ifs
        · refine inspectRecord_wp fun answer _ ↦ ?_
          split_ifs <;> trivial
        · trivial

theorem identify_wp {owner : HostId} (names : List (List Char)) :
    (contract lib host attempt).wp (identify lib owner names) (fun _ _ ↦ True) record := by
  induction names generalizing record with
  | nil => trivial
  | cons line rest ih =>
    refine inspectRecord_wp fun answer _ ↦ ?_
    split
    · refine wp_seq ih (fun others _ _ ↦ ?_) fun _ _ _ ↦ trivial
      split_ifs <;> trivial
    · exact ih

theorem enumerateOwned_wp {owner : HostId} :
    (contract lib host attempt).wp (enumerateOwned lib owner) (fun _ _ ↦ True) record := by
  refine (wp_bind _ _).mpr ((wp_bind _ _).mpr
    (look_wp (by decide) fun answer _ ↦ ?_))
  refine (Contract.wp_done _).mpr ((Contract.wp_pure _).mpr ?_)
  cases ran lib answer with
  | error _ => trivial
  | ok _ =>
    dsimp only
    split_ifs
    · trivial
    · exact identify_wp _

end Specs

end HyperV

/-! ## Every provider -/

/-- What the operations of a provider may be relied on for. -/
structure ConcreteProvider.Proves (lib : Decoders) (provider : ConcreteProvider)
    (attempt : RunnerAttempt) (record : CommandRecord) : Prop where
  inspect : (provider.commandContract lib attempt).wp ((provider.operations lib).inspect attempt)
    (fun result next ↦ result = .ok .missing → provider.ShowsAbsent lib attempt next) record
  recover : (provider.commandContract lib attempt).wp ((provider.operations lib).recover attempt)
    (fun result next ↦ result = .ok .missing → provider.ShowsAbsent lib attempt next) record
  owns : (provider.commandContract lib attempt).wp ((provider.operations lib).owns attempt)
    (fun result next ↦ result = .ok true → provider.ShowsOwned lib attempt next) record
  stop : (provider.commandContract lib attempt).wp ((provider.operations lib).stop attempt)
    (fun _ _ ↦ True) record
  destroy : (provider.commandContract lib attempt).wp ((provider.operations lib).destroy attempt)
    (fun _ _ ↦ True) record
  enumerateOwned : ∀ host, (provider.commandContract lib attempt).wp
    ((provider.operations lib).enumerateOwned host) (fun _ _ ↦ True) record

theorem ConcreteProvider.proves (lib : Decoders) (provider : ConcreteProvider)
    {attempt : RunnerAttempt} (hisolated : attempt.execution.isNative = false)
    (record : CommandRecord) : provider.Proves lib attempt record := by
  cases provider with
  | oci processes native => exact {
      inspect := Oci.inspect_wp hisolated
      recover := Oci.recover_wp hisolated
      owns := Oci.owns_wp hisolated
      stop := Oci.stop_wp hisolated
      destroy := Oci.destroy_wp hisolated
      enumerateOwned := fun _ ↦ Oci.enumerateOwned_wp }
  | hyperV host => exact {
      inspect := HyperV.inspect_wp
      recover := HyperV.inspect_wp
      owns := HyperV.owns_wp
      stop := HyperV.stop_wp
      destroy := HyperV.destroy_wp
      enumerateOwned := fun _ ↦ HyperV.enumerateOwned_wp }

/-! ## The cleanup over a provider -/

/-- Another record of the same attempt's environment. -/
def SameEnvironment (attempt other : RunnerAttempt) : Prop :=
  other.id = attempt.id ∧ other.execution = attempt.execution

/-- Whether the environment was found missing, before or now. -/
def orMissing (missing : Bool) : Except FailureReason EnvironmentState → Bool
  | .ok .missing => true
  | _ => missing

/-- Whether the provider has answered that the environment is missing. -/
def sighted (missing : Bool) (c : LifecycleCall) (answer : c.Answer) : Bool :=
  match c, answer with
  | .inspect _, seen | .recover _, seen => orMissing missing seen
  | _, _ => missing

/-- What a cleanup asks: every question is about its attempt, which is journalled clean, or
without its slot, only after the provider answered that the environment is missing. -/
def asksAbout (attempt : RunnerAttempt) : Contract LifecycleCall LifecycleCall.Answer Bool :=
  .ofAfter
    (fun missing c ↦ match c with
      | .inspect other | .recover other | .owns other | .stop other | .destroy other =>
        SameEnvironment attempt other
      | .recordAttempt other =>
        other.state = .cleaned ∨ other.countsAgainstCapacity = false → missing = true
      | _ => True)
    sighted

section Cleanup

variable {launcher : Launcher} {attempt began : RunnerAttempt} {missing : Bool}

theorem advance_about {op : Timestamp → AttemptOp}
    {Q : Except LifecycleError RunnerAttempt → Bool → Prop}
    (hkeeps : ∀ now, ((op now).effect attempt).state = .cleaned ∨
      ((op now).effect attempt).countsAgainstCapacity = false → missing = true)
    (hok : ∀ now, Q (.ok ((op now).effect attempt)) missing)
    (hfailed : ∀ error, Q (.error error) missing) :
    (asksAbout began).wp (advance attempt op) Q missing := by
  refine ask_wp trivial fun now ↦ ?_
  unfold transition edge
  cases hanswer : (op now).answer attempt with
  | error refusal => exact hfailed _
  | ok next =>
    obtain ⟨-, rfl⟩ := AttemptOp.answer_iff.mp hanswer
    refine (wp_bind _ _).mpr ((wp_bind _ _).mpr
      (ask_wp (hkeeps now) fun answer ↦ ?_))
    cases answer with
    | ok _ => exact hok now
    | error _ => exact hfailed _

theorem keeps_slot {other : RunnerAttempt} (hisolated : other.execution.isNative = false)
    (hstate : other.state ≠ .cleaned) :
    ¬ (other.state = .cleaned ∨ other.countsAgainstCapacity = false) := by
  rintro (hcleaned | hfree)
  · exact hstate hcleaned
  · unfold RunnerAttempt.countsAgainstCapacity at hfree
    simp [hisolated, hstate] at hfree

theorem defer_about (hisolated : attempt.execution.isNative = false) {α : Type} :
    (asksAbout began).wp (deferEnvironmentCleanup attempt : LifecycleProgram α)
      (fun _ _ ↦ True) missing := by
  refine (wp_bind _ _).mpr
    (advance_about (fun now h ↦ ?_) (fun _ ↦ trivial) fun _ ↦ trivial)
  exact absurd h (keeps_slot hisolated (by rintro ⟨⟩))

theorem retireIsolated_about (hisolated : attempt.execution.isNative = false) :
    (asksAbout began).wp (retireIsolated launcher attempt) (fun _ _ ↦ True) true := by
  refine ask_wp trivial fun resources ↦ ?_
  split_ifs
  · exact defer_about hisolated
  · unfold retire
    split
    · trivial
    · refine ask_wp trivial fun preserved ↦ ?_
      cases preserved with
      | error _ => trivial
      | ok _ =>
        refine ask_wp trivial fun scrubbed ↦ ?_
        cases scrubbed with
        | error _ => trivial
        | ok _ =>
          refine ask_wp trivial fun released ↦ ?_
          cases released with
          | error _ => trivial
          | ok _ =>
            exact (wp_bind _ _).mpr ((wp_bind _ _).mpr
              (advance_about (fun _ _ ↦ rfl) (fun _ ↦ trivial) fun _ ↦ trivial))

theorem destroyEnvironment_about (hisolated : attempt.execution.isNative = false)
    (hsame : SameEnvironment began attempt) (current : EnvironmentState) :
    (asksAbout began).wp (destroyEnvironment launcher attempt current) (fun _ _ ↦ True)
      missing := by
  have hdestroy : (asksAbout began).wp (destroyStopped launcher attempt) (fun _ _ ↦ True)
      missing := by
    refine ask_wp hsame fun destroyed ↦ ?_
    split
    · refine ask_wp hsame fun seen ↦ ?_
      split
      · exact retireIsolated_about hisolated
      · exact defer_about hisolated
    · exact defer_about hisolated
  refine ask_wp hsame fun owned ↦ ?_
  split
  · refine (wp_bind _ _).mpr ?_
    unfold stopEnvironment
    split_ifs
    · refine ask_wp hsame fun stopped ↦ ?_
      split
      · exact hdestroy
      · exact defer_about hisolated
    · exact hdestroy
  · exact defer_about hisolated

theorem cleanDestroying_about (hisolated : attempt.execution.isNative = false)
    (hsame : SameEnvironment began attempt) :
    (asksAbout began).wp (cleanDestroying launcher attempt) (fun _ _ ↦ True) missing := by
  refine ask_wp trivial fun resources ↦ ?_
  have hcurrent (seen : Except FailureReason EnvironmentState) (known : Bool)
      (hknown : seen = .ok .missing → known = true) :
      (asksAbout began).wp (cleanCurrent launcher attempt seen) (fun _ _ ↦ True) known := by
    cases seen with
    | error _ => exact defer_about hisolated
    | ok current =>
      unfold cleanCurrent
      dsimp only
      split_ifs with hunnamed hexists
      · exact defer_about hisolated
      · exact destroyEnvironment_about hisolated hsame current
      · rw [hknown (congrArg _ (not_not.mp hexists))]
        exact retireIsolated_about hisolated
  dsimp only
  split_ifs
  · exact defer_about hisolated
  · exact defer_about hisolated
  · refine (wp_bind _ _).mpr ?_
    unfold currentEnvironment
    split_ifs
    · refine call_wp hsame fun seen ↦ hcurrent seen _ ?_
      rintro rfl
      rfl
    · refine call_wp hsame fun seen ↦ hcurrent seen _ ?_
      rintro rfl
      rfl

theorem cleanIsolatedAttempt_about (hisolated : attempt.execution.isNative = false) :
    (asksAbout attempt).wp (cleanIsolatedAttempt launcher attempt) (fun _ _ ↦ True) missing := by
  unfold cleanIsolatedAttempt
  split_ifs
  · exact cleanDestroying_about hisolated ⟨rfl, rfl⟩
  · refine (wp_bind _ _).mpr (advance_about ?_ ?_ fun _ ↦ trivial)
    · exact fun now h ↦ absurd h (keeps_slot hisolated (by rintro ⟨⟩))
    · exact fun now ↦ cleanDestroying_about hisolated ⟨rfl, rfl⟩

end Cleanup

/-- A call of a port, or of the container runtime. -/
inductive HostCall where
  | port (c : LifecycleCall)
  | command (c : RuntimeCommand)

/-- What each call may answer. -/
abbrev HostCall.Answer : HostCall → Type
  | port c => c.Answer
  | command _ => CommandAnswer

/-- An operation of the launcher with its providers. -/
abbrev HostProgram := Program HostCall HostCall.Answer

def onHost {ε α : Type} (p : CommandProgram ε α) : HostProgram ε α :=
  p.mapCalls .command fun _ answer ↦ answer

/-- A provider under the launcher: its operations answer the launcher's questions, and the other
ports answer theirs. -/
def serve (provider : ExecutionProvider) : (c : LifecycleCall) → HostProgram Empty c.Answer
  | .inspect attempt => onHost (provider.inspect attempt).outcome
  | .recover attempt => onHost (provider.recover attempt).outcome
  | .owns attempt => onHost (provider.owns attempt).outcome
  | .stop attempt => onHost (provider.stop attempt).outcome
  | .destroy attempt => onHost (provider.destroy attempt).outcome
  | .enumerateOwned host => onHost (provider.enumerateOwned host)
  | c => .perform (HostCall.port c)

/-- The cleanup of an attempt, down to the commands of its provider. -/
def cleanOver (launcher : Launcher) (provider : ExecutionProvider) (attempt : RunnerAttempt) :
    HostProgram LifecycleError Unit :=
  (cleanIsolatedAttempt launcher attempt).interpret (serve provider)

namespace ConcreteProvider

/-- The commands of a cleanup are recorded; an attempt is journalled clean, or without its slot,
only once the record shows that its container does not exist. -/
def hostContract (lib : Decoders) (provider : ConcreteProvider) (attempt : RunnerAttempt) :
    Contract HostCall HostCall.Answer CommandRecord where
  requires record c := match c with
    | .port (.recordAttempt other) =>
      other.state = .cleaned ∨ other.countsAgainstCapacity = false →
        provider.ShowsAbsent lib attempt record
    | .port _ => True
    | .command c => (provider.commandContract lib attempt).requires record c
  steps record c answer next := match c, answer with
    | .port _, _ => next = record
    | .command c, answer => (provider.commandContract lib attempt).steps record c answer next

section Simulation

variable {lib : Decoders} {provider : ConcreteProvider} {attempt other : RunnerAttempt}
  {record : CommandRecord}

theorem reports_same (lib : Decoders) (provider : ConcreteProvider)
    (h : SameEnvironment attempt other) :
    provider.ReportsAbsent lib other = provider.ReportsAbsent lib attempt ∧
      provider.ReportsOwned lib other = provider.ReportsOwned lib attempt ∧
      provider.Legible lib other = provider.Legible lib attempt := by
  obtain ⟨hid, hexecution⟩ := h
  cases provider with
  | oci processes native =>
    refine ⟨?_, ?_, rfl⟩
    · funext c answer
      simp only [ReportsAbsent, Oci.ReportsAbsent, Oci.listArgs, hid, hexecution]
    · funext c answer
      simp only [ReportsOwned, Oci.ReportsOwned, hid, hexecution]
  | hyperV host =>
    have hexpected : HyperV.expectedRecord host other = HyperV.expectedRecord host attempt := by
      simp only [HyperV.expectedRecord, hid, hexecution]
    refine ⟨?_, ?_, ?_⟩
    · funext c answer
      simp only [ReportsAbsent, HyperV.ReportsAbsent, HyperV.Asks, hexpected]
    · funext c answer
      simp only [ReportsOwned, HyperV.ReportsOwned, HyperV.Asks, hexpected, hid, hexecution]
    · funext c answer
      simp only [Legible, HyperV.Legible, HyperV.Asks, hexpected]

theorem proves_same (lib : Decoders) (provider : ConcreteProvider)
    (h : SameEnvironment attempt other) (hisolated : attempt.execution.isNative = false)
    (record : CommandRecord) :
    provider.commandContract lib other = provider.commandContract lib attempt ∧
      (provider.ShowsAbsent lib other = provider.ShowsAbsent lib attempt) ∧
      provider.Proves lib other record := by
  obtain ⟨habsent, howned, hlegible⟩ := reports_same lib provider h
  refine ⟨?_, ?_, provider.proves lib (h.2 ▸ hisolated) record⟩
  · simp only [commandContract, ShowsOwned, howned, hlegible]
  · funext record
    simp only [ShowsAbsent, habsent]

theorem record_grows {ε α : Type} {p : CommandProgram ε α}
    {Q : Except ε α → CommandRecord → Prop}
    (h : (provider.commandContract lib attempt).wp p Q record) :
    (provider.commandContract lib attempt).wp p
      (fun result next ↦ record ⊆ next ∧ Q result next) record := by
  refine wp_along (fun _ ↦ List.Subset.refl _) (fun _ _ _ ↦ List.Subset.trans) ?_ h
  rintro record c answer next ⟨-, rfl⟩
  exact List.subset_append_left record _

theorem wp_onHost {ε α : Type} {p : CommandProgram ε α}
    {Q : Except ε α → CommandRecord → Prop}
    (h : (provider.commandContract lib attempt).wp p Q record) :
    (provider.hostContract lib attempt).wp (onHost p) Q record := by
  refine (wp_mapCalls p).mpr ?_
  induction p generalizing record with
  | done result => exact h
  | ask c next ih =>
    refine ⟨h.1, ?_⟩
    rintro _ following ⟨answer, rfl, hstep⟩
    exact ih answer (h.2 answer following hstep)

/-- What the launcher was told is shown by the record. -/
def Backed (lib : Decoders) (provider : ConcreteProvider) (attempt : RunnerAttempt)
    (missing : Bool) (record : CommandRecord) : Prop :=
  missing = true → provider.ShowsAbsent lib attempt record

theorem Backed.grow {missing : Bool} {next : CommandRecord}
    (h : Backed lib provider attempt missing record) (hgrows : record ⊆ next) :
    Backed lib provider attempt missing next := by
  intro hmissing
  obtain ⟨entry, hmem, habsent⟩ := h hmissing
  exact ⟨entry, hgrows hmem, habsent⟩

theorem serves_other {missing : Bool} {c : LifecycleCall} {p : CommandProgram Empty c.Answer}
    (hbacked : Backed lib provider attempt missing record)
    (hp : (provider.commandContract lib attempt).wp p (fun _ _ ↦ True) record)
    (hother : ∀ answer, sighted missing c answer = missing) :
    (provider.hostContract lib attempt).wp (onHost p)
      (fun result next ↦ ∀ answer, result = .ok answer → ∃ told,
        (asksAbout attempt).steps missing c answer told ∧
          Backed lib provider attempt told next) record := by
  refine wp_mono (wp_onHost (record_grows hp)) fun result next hnext answer _ ↦ ?_
  exact ⟨_, rfl, (hother answer).symm ▸ hbacked.grow hnext.1⟩

theorem serves_seen {missing : Bool} {p : RuntimeProgram EnvironmentState}
    (hbacked : Backed lib provider attempt missing record)
    (hp : (provider.commandContract lib attempt).wp p
      (fun result next ↦ result = .ok .missing → provider.ShowsAbsent lib attempt next) record) :
    (provider.hostContract lib attempt).wp (onHost (p.outcome : CommandProgram Empty _))
      (fun result next ↦ ∀ answer, result = .ok answer →
        Backed lib provider attempt (orMissing missing answer) next) record := by
  have houtcome : (provider.commandContract lib attempt).wp (p.outcome : CommandProgram Empty _)
      (fun result next ↦ result = .ok (.ok .missing) → provider.ShowsAbsent lib attempt next)
      record :=
    (wp_outcome p).mpr
      (wp_mono hp fun _ _ hshown h ↦ hshown (Except.ok.inj h))
  refine wp_mono (wp_onHost (record_grows houtcome)) ?_
  rintro result next ⟨hgrows, hshown⟩ answer rfl
  unfold orMissing
  split
  · exact fun _ ↦ hshown rfl
  · exact hbacked.grow hgrows

theorem serves (hisolated : attempt.execution.isNative = false) (c : LifecycleCall)
    (missing : Bool) (record : CommandRecord) (hbacked : Backed lib provider attempt missing record)
    (hasks : (asksAbout attempt).requires missing c) :
    (provider.hostContract lib attempt).wp (serve (provider.operations lib) c)
      (fun result next ↦ ∀ answer, result = .ok answer → ∃ told,
        (asksAbout attempt).steps missing c answer told ∧
          Backed lib provider attempt told next) record := by
  cases c with
  | inspect other =>
    obtain ⟨hcontract, habsent, hproves⟩ :=
      proves_same lib provider hasks hisolated record
    have hinspect := hproves.inspect
    rw [hcontract, habsent] at hinspect
    refine wp_mono (serves_seen hbacked hinspect) fun result next hnext answer ha ↦ ?_
    exact ⟨_, rfl, hnext answer ha⟩
  | recover other =>
    obtain ⟨hcontract, habsent, hproves⟩ :=
      proves_same lib provider hasks hisolated record
    have hrecover := hproves.recover
    rw [hcontract, habsent] at hrecover
    refine wp_mono (serves_seen hbacked hrecover) fun result next hnext answer ha ↦ ?_
    exact ⟨_, rfl, hnext answer ha⟩
  | owns other =>
    obtain ⟨hcontract, -, hproves⟩ :=
      proves_same lib provider hasks hisolated record
    have howns := hproves.owns
    rw [hcontract] at howns
    refine serves_other (c := .owns other) hbacked ((wp_outcome _).mpr ?_) fun _ ↦ rfl
    exact wp_mono howns fun _ _ _ ↦ trivial
  | stop other =>
    obtain ⟨hcontract, -, hproves⟩ :=
      proves_same lib provider hasks hisolated record
    have hstop := hproves.stop
    rw [hcontract] at hstop
    exact serves_other (c := .stop other) hbacked ((wp_outcome _).mpr hstop)
      fun _ ↦ rfl
  | destroy other =>
    obtain ⟨hcontract, -, hproves⟩ :=
      proves_same lib provider hasks hisolated record
    have hdestroy := hproves.destroy
    rw [hcontract] at hdestroy
    exact serves_other (c := .destroy other) hbacked ((wp_outcome _).mpr hdestroy)
      fun _ ↦ rfl
  | enumerateOwned host =>
    exact serves_other (c := .enumerateOwned host) hbacked
      ((provider.proves lib hisolated record).enumerateOwned host) fun _ ↦ rfl
  | recordAttempt other =>
    refine ⟨fun hfree ↦ hbacked (hasks hfree), ?_⟩
    rintro answer _ rfl _ _
    exact ⟨_, rfl, hbacked⟩
  | _ =>
    refine ⟨trivial, ?_⟩
    rintro answer _ rfl _ _
    exact ⟨_, rfl, hbacked⟩

theorem cleanOver_wp (hisolated : attempt.execution.isNative = false) (launcher : Launcher) :
    (provider.hostContract lib attempt).wp
      (cleanOver launcher (provider.operations lib) attempt) (fun _ _ ↦ True) [] := by
  have hasked : (asksAbout attempt).wp (cleanIsolatedAttempt launcher attempt) (fun _ _ ↦ True)
      false := cleanIsolatedAttempt_about hisolated
  refine wp_mono (wp_interpret (serves hisolated) hasked ?_) fun _ _ _ ↦ trivial
  exact fun h ↦ nomatch h

end Simulation

end ConcreteProvider

/-- Whatever the container runtime answers, as long as the records that the provider of Windows
containers asks for can be read: an environment is missing only where the runtime reported so, and
owned only with the attempt's labels; a container is stopped or removed only after its labels
were read in the same call; and an isolated attempt is journalled clean, or without its slot, only
after the runtime reported that its container does not exist. An answer to the provider of Windows
containers is taken for a missing environment rightly exactly when it can be read. -/
theorem absence_proved (lib : Decoders) (provider : ConcreteProvider) (attempt : RunnerAttempt)
    (hisolated : attempt.execution.isNative = false) :
    (∀ record, (provider.commandContract lib attempt).Runs
        ((provider.operations lib).inspect attempt) [] (.done (.ok .missing)) record →
      provider.ShowsAbsent lib attempt record) ∧
    (∀ record, (provider.commandContract lib attempt).Runs
        ((provider.operations lib).recover attempt) [] (.done (.ok .missing)) record →
      provider.ShowsAbsent lib attempt record) ∧
    (∀ record, (provider.commandContract lib attempt).Runs
        ((provider.operations lib).owns attempt) [] (.done (.ok true)) record →
      provider.ShowsOwned lib attempt record) ∧
    (∀ record c next, (provider.commandContract lib attempt).Runs
        ((provider.operations lib).stop attempt) [] (.ask c next) record → c.Touches →
      provider.ShowsOwned lib attempt record) ∧
    (∀ record c next, (provider.commandContract lib attempt).Runs
        ((provider.operations lib).destroy attempt) [] (.ask c next) record → c.Touches →
      provider.ShowsOwned lib attempt record) ∧
    (∀ launcher record other next, (provider.hostContract lib attempt).Runs
        (cleanOver launcher (provider.operations lib) attempt) []
        (.ask (.port (.recordAttempt other)) next) record →
      other.state = .cleaned ∨ other.countsAgainstCapacity = false →
      provider.ShowsAbsent lib attempt record) ∧
    ∀ host c next, provider = .hyperV host →
      (provider.operations lib).inspect attempt = .ask c next → ∀ answer,
        ((next answer = .done (.ok .missing) → provider.ReportsAbsent lib attempt c answer) ↔
          provider.Legible lib attempt c answer) := by
  have hproves := provider.proves lib hisolated []
  refine ⟨?_, ?_, ?_, ?_, ?_, ?_, ?_⟩
  · exact fun record hruns ↦ wp_runs hproves.inspect hruns rfl
  · exact fun record hruns ↦ wp_runs hproves.recover hruns rfl
  · exact fun record hruns ↦ wp_runs hproves.owns hruns rfl
  · exact fun record c next hruns ↦ Contract.requires_of_runs hproves.stop hruns
  · exact fun record c next hruns ↦ Contract.requires_of_runs hproves.destroy hruns
  · exact fun launcher record other next hruns ↦
      Contract.requires_of_runs (provider.cleanOver_wp hisolated launcher) hruns
  · rintro host c next rfl hinspect answer
    exact HyperV.inspect_exact hinspect answer

/-- An attempt in a Linux container whose id is journalled. -/
def ociAttempt : RunnerAttempt :=
  { RunnerAttempt.allocate ⟨1⟩ ⟨2⟩ "/r/1" 0 with
    execution := .isolated .oci (some "c1")
      ⟨"sha256:" ++ String.ofList (List.replicate 64 '0')⟩ "g1" }

/-- Decoders that are right on ASCII text and on identifiers. -/
def asciiDecoders : Decoders where
  fromUtf8 bytes :=
    if bytes.all (· < 128) then some (String.ofList (bytes.map fun byte ↦ Char.ofNat byte.toNat))
    else none
  fromUtf8Lossy bytes := String.ofList (bytes.map fun byte ↦ Char.ofNat byte.toNat)
  parseJson _ := none
  parseUuid text :=
    let digits := text.toList.filter (· ≠ '-')
    if digits.length = 32 && digits.all isAsciiHexdigit then
      some (digits.foldl (fun value digit ↦ 16 * value +
        if digit.isDigit then digit.toNat - 48 else digit.toLower.toNat - 87) 0)
    else none

/-- A runtime that reports the absence of a container is taken at its word. -/
theorem absent_container_missing : ∃ (provider : ConcreteProvider) (record : CommandRecord),
    (provider.commandContract asciiDecoders ociAttempt).Runs
      ((provider.operations asciiDecoders).inspect ociAttempt) [] (.done (.ok .missing)) record ∧
    provider.ShowsAbsent asciiDecoders ociAttempt record := by
  let provider := ConcreteProvider.oci ⟨⟨1⟩, "podman", true, true⟩
    ⟨fun _ ↦ .ok .missing, fun _ ↦ .ok .stopped, fun _ ↦ .ok .destroyed⟩
  have h0 := Contract.Runs.cut (C := provider.commandContract asciiDecoders ociAttempt)
    ((provider.operations asciiDecoders).inspect ociAttempt) []
  have h1 := h0.advance ⟨"podman", Oci.existsArgs "c1"⟩ (.ok ⟨some 1, [], []⟩) _ rfl
    ⟨trivial, rfl⟩
  exact ⟨provider, _, h1, (absence_proved asciiDecoders provider ociAttempt rfl).1 _ h1⟩

def bytesOf (text : String) : List UInt8 :=
  text.toList.map fun character ↦ UInt8.ofNat character.toNat

def failedContainer : RunnerAttempt :=
  AttemptOp.execAll [
    .allocateExecution (.isolated .windowsHyperVContainer none
      ⟨"sha256:" ++ String.ofList (List.replicate 64 '0')⟩ "g1"),
    .beginPrepare 1, .preparedEnvironment "c1", .markPrepared 2,
    .conclude (.failed .jitRequestFailed) 3] (.allocate ⟨1⟩ ⟨2⟩ "/r/1" 0)

/-- What the runtime prints of a running container without labels. -/
def unlabelled : CommandAnswer :=
  .ok ⟨some 0, bytesOf ("/" ++ HyperV.containerName ⟨1⟩ ⟨1⟩ "g1" ++ "|running|0|||||"), []⟩

/-- Every command is answered and recorded, and every port answers. -/
def anyAnswer : Contract HostCall HostCall.Answer CommandRecord where
  requires _ _ := True
  steps record c answer next := match c, answer with
    | .port _, _ => next = record
    | .command c, answer => next = record ++ [(c, answer)]

/-- The same attempt, its environment being destroyed. -/
def destroyingContainer : RunnerAttempt :=
  (AttemptOp.beginDestroy 4).effect failedContainer

def listContainers : RuntimeCommand :=
  ⟨"docker", ["ps", "--all", "--filter", "label=" ++ HyperV.labelHost ++ "=" ++ uuidText 1,
    "--format", "\x7b\x7b.Names\x7d\x7d"]⟩

/-- The command that asks for the record of the attempt's container. -/
def inspectContainer : RuntimeCommand :=
  ⟨"docker", HyperV.inspectArgs (HyperV.containerName ⟨1⟩ ⟨1⟩ "g1")⟩

/-- The record of a cleanup over a runtime that lists nothing and shows the running container. -/
def unlabelledRecord : CommandRecord :=
  [(listContainers, .ok ⟨some 0, [], []⟩), (inspectContainer, unlabelled),
    (listContainers, .ok ⟨some 0, [], []⟩)]

theorem asciiDecoders_lossy (bytes : List UInt8) : asciiDecoders.fromUtf8Lossy bytes =
    String.ofList (bytes.map fun byte ↦ Char.ofNat byte.toNat) :=
  rfl

theorem readRecord_exited (lib : Decoders) (stdout : List UInt8) :
    HyperV.readRecord lib (HyperV.ran lib (.ok ⟨some 0, stdout, []⟩)) =
      .ok (HyperV.ResourceRecord.parse lib (trimmed (lib.fromUtf8Lossy (stdout.take maxCapture)))) :=
  rfl

/-- A line without an owner is no record. -/
theorem parse_ownerless {lib : Decoders} {line : String}
    (howner : ((line.toList.dropWhile (· == '/')).splitOn '|')[3]? = some [])
    (hnone : lib.parseUuid "" = none) : HyperV.ResourceRecord.parse lib line = none := by
  unfold HyperV.ResourceRecord.parse
  split
  · rename_i name state code host attempt generation image provider hfields
    rw [hfields] at howner
    obtain rfl : host = [] := Option.some.inj howner
    show (lib.parseUuid "" >>= _) = none
    rw [hnone]
    rfl
  · rfl

set_option maxRecDepth 4000 in
theorem unlabelled_unread :
    HyperV.readRecord asciiDecoders (HyperV.ran asciiDecoders unlabelled) = .ok none := by
  have htext : "/" ++ HyperV.containerName ⟨1⟩ ⟨1⟩ "g1" ++ "|running|0|||||" =
      "/runner-manager-00000000-0000-0000-0000-000000000001-" ++
        "00000000-0000-0000-0000-000000000001-1|running|0|||||" := by
    decide +kernel
  rw [unlabelled, htext, readRecord_exited, asciiDecoders_lossy]
  -- The text as a list of characters: its bytes are computed once.
  rw [bytesOf, String.toList_append, String.toList_ofList, String.toList_ofList]
  refine congrArg Except.ok (parse_ownerless ?_ rfl)
  rw [trimmed, String.toList_ofList, String.toList_ofList]
  decide +kernel

set_option maxRecDepth 4000 in
/-- A running container without labels reads as a missing one, and its attempt is journalled
clean. -/
theorem unlabelled_container_cleaned : ∃ (other : RunnerAttempt)
    (next : (HostCall.port (.recordAttempt other)).Answer → HostProgram LifecycleError Unit),
    failedContainer.execution.isNative = false ∧
    anyAnswer.Runs
      (cleanOver sampleLauncher ((ConcreteProvider.hyperV ⟨1⟩).operations asciiDecoders)
        failedContainer) [] (.ask (.port (.recordAttempt other)) next) unlabelledRecord ∧
    other.state = .cleaned ∧ other.countsAgainstCapacity = false ∧
    ¬ (ConcreteProvider.hyperV ⟨1⟩).ShowsAbsent asciiDecoders failedContainer unlabelledRecord := by
  have h0 := Contract.Runs.cut (C := anyAnswer) (cleanOver sampleLauncher
    ((ConcreteProvider.hyperV ⟨1⟩).operations asciiDecoders) failedContainer) []
  have h1 := h0.advance (.port .now) (4 : Int) _ rfl rfl
  have h2 := h1.advance (.port (.recordAttempt destroyingContainer)) (.ok ()) _ rfl rfl
  have h3 := h2.advance (.command listContainers) (.ok ⟨some 0, [], []⟩) _ rfl rfl
  have h4 := h3.advance (.command inspectContainer) unlabelled _ rfl rfl
  simp only [Program.andThen, pure, unlabelled_unread] at h4
  have h5 := h4.advance (.command listContainers) (.ok ⟨some 0, [], []⟩) _ rfl rfl
  have h6 := h5.advance (.port (.preserveDiagnostics destroyingContainer
    (.failed .jitRequestFailed))) (.ok ()) _ rfl rfl
  have h7 := h6.advance (.port (.scrubWorkspace destroyingContainer)) (.ok ()) _ rfl rfl
  have h8 := h7.advance (.port (.releasePackage ⟨1⟩)) (.ok ()) _ rfl rfl
  have h9 := h8.advance (.port .now) (5 : Int) _ rfl rfl
  refine ⟨_, _, rfl, h9, rfl, rfl, ?_⟩
  -- Every command succeeded, so none of them reported an absence.
  rintro ⟨entry, hmem, -, found, hanswer, hfailed, -⟩
  have hsucceeded : ∀ shown ∈ unlabelledRecord, ∀ output, shown.2 = .ok output →
      output.code = some 0 := by
    intro shown hshown output houtput
    simp only [unlabelledRecord, List.mem_cons, List.not_mem_nil, or_false] at hshown
    rcases hshown with rfl | rfl | rfl <;> cases houtput <;> rfl
  unfold ProcessOutput.success at hfailed
  rw [hsucceeded entry hmem found hanswer] at hfailed
  cases hfailed

end RunnerManager.Agent
