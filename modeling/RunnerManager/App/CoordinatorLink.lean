import RunnerManager.Coordinator.Registry
import RunnerManager.Coordinator.Wire
import RunnerManager.Domain.Capacity
import RunnerManager.Domain.RunsOn
import RunnerManager.Domain.StoreRead
import Mathlib.Algebra.BigOperators.Fin
import Mathlib.Data.Finset.Sort
import Mathlib.Data.Fintype.Prod
import Mathlib.Data.String.Basic

/-!
# The link to a coordinator

What a host says about itself: `advertised_targets`, `hello` and `heartbeat` of
`crates/app/src/cli/coordinator.rs`. The encoder has no bound of its own, so what a host can say
is bounded only by what its coordinator accepts. Read `wire_closure` first; `labels_cover_agrees`
says that the two sides match a job against the same labels.
-/

namespace RunnerManager.App

open RunnerManager.Domain RunnerManager.Text
open RunnerManager.Coordinator (TargetRef Target Profile Hello Heartbeat HostMessage ServerMessage
  Unsigned protocolVersion maxMessageBytes accept accept_iff accept_long labelsCover)

/-! ## What a host advertises -/

def targetRef (target : ScaleTarget) : TargetRef where
  scope :=
    match target with
    | .repository _ => .repo
    | .organization _ => .org
  name := target.slug

/-- `RoutingLabels::as_registration_labels`: the host label, then the others in order. -/
def asRegistrationLabels (labels : RoutingLabels) : List String :=
  labels.hostLabel.text :: (labels.additional.image (·.text)).sort (· ≤ ·)

def advertisedProfile (policy : ScalePolicy) (labels : RoutingLabels) : Profile where
  name := policy.profileName.text
  labels := asRegistrationLabels labels
  enabled := policy.mayStartRunners

/-- One policy is one more profile of its target; a target is found as it is spelled. -/
def advertise (targets : List Target) (policy : ScalePolicy) : List Target :=
  match policy.routingLabels with
  | none => targets
  | some labels =>
    let reference := targetRef policy.target
    let profile := advertisedProfile policy labels
    match targets.findIdx? fun target ↦
        target.scope = reference.scope && target.name = reference.name with
    | some i => targets.modify i fun target ↦
        { target with profiles := target.profiles ++ [profile] }
    | none => targets ++ [⟨reference.scope, reference.name, [profile]⟩]

def advertisedTargets (policies : List ScalePolicy) : List Target :=
  policies.foldl advertise []

/-- What the host's system reports about it. -/
structure HostFacts where
  availableParallelism : Option Nat
  physicalMemoryBytes : Option (Unsigned 64)
  freeDiskBytes : Option (Unsigned 64)
  cpuLoadPercent : Option (Unsigned 32)
  availableMemoryBytes : Option (Unsigned 64)

/-- A count of cores that a `u32` holds, else one. -/
def HostFacts.cores (facts : HostFacts) : Unsigned 32 :=
  match facts.availableParallelism with
  | some n => if h : n < 2 ^ 32 then ⟨n, h⟩ else ⟨1, Coordinator.one_unsigned⟩
  | none => ⟨1, Coordinator.one_unsigned⟩

def hello (facts : HostFacts) (host : Host) (hostId : String) (policies : List ScalePolicy) :
    Hello where
  protocolVersion := protocolVersion
  hostId := hostId
  os := host.os.labelToken
  arch := host.architecture.labelToken
  cores := facts.cores
  ramBytes := facts.physicalMemoryBytes
  diskFreeBytes := facts.freeDiskBytes
  targets := advertisedTargets policies

/-- Add up `u16`s, saturating. -/
def saturatingSum : List Nat → Nat
  | [] => 0
  | n :: rest => min (n + saturatingSum rest) u16Max

theorem saturatingSum_le (counts : List Nat) : saturatingSum counts ≤ u16Max := by
  cases counts with
  | nil => exact Nat.zero_le _
  | cons n rest => exact Nat.min_le_right _ _

/-- The live runners of the policies whose attempts could be read. -/
def busySlots (attemptsOf : PolicyId → Except StoreError (List RunnerAttempt))
    (policies : List ScalePolicy) : Nat :=
  saturatingSum ((policies.filterMap fun policy ↦ (attemptsOf policy.id).toOption).map activeCount)

def heartbeat (facts : HostFacts) (host : Host)
    (attemptsOf : PolicyId → Except StoreError (List RunnerAttempt)) (unfit draining : Bool)
    (policies : List ScalePolicy) : Heartbeat where
  freeSlots := ⟨host.hostCapacity.val - busySlots attemptsOf policies, by
    have hcapacity := host.hostCapacity.property.2
    omega⟩
  busySlots := ⟨busySlots attemptsOf policies, by
    have hbusy := saturatingSum_le ((policies.filterMap fun policy ↦
      (attemptsOf policy.id).toOption).map activeCount)
    have hmax : u16Max < 2 ^ 32 := by decide
    exact Nat.lt_of_le_of_lt hbusy hmax⟩
  cpuLoadPercent := facts.cpuLoadPercent
  freeRamBytes := facts.availableMemoryBytes
  unfit := unfit
  draining := draining

/-! ## What the other side accepts -/

/-- Every message either side builds is accepted by the other as that message, also with fields
a newer peer adds, exactly when its text fits into one message. -/
theorem wire_closure (parse : List Char → Option Json) :
    (∀ message : HostMessage, parse message.encode = some message.toJson →
      (accept parse HostMessage.ofFields message.encode = .ok message ↔
        message.toJson.size ≤ maxMessageBytes)) ∧
    (∀ message : ServerMessage, parse message.encode = some message.toJson →
      (accept parse ServerMessage.ofFields message.encode = .ok message ↔
        message.toJson.size ≤ maxMessageBytes)) ∧
    (∀ (message : HostMessage) (value : Json), Json.Widens message.toJson value →
      parse value.render = some value →
        (accept parse HostMessage.ofFields value.render = .ok message ↔
          value.size ≤ maxMessageBytes)) ∧
    ∀ (message : ServerMessage) (value : Json), Json.Widens message.toJson value →
      parse value.render = some value →
        (accept parse ServerMessage.ofFields value.render = .ok message ↔
          value.size ≤ maxMessageBytes) := by
  refine ⟨?_, ?_, ?_, ?_⟩
  · intro message hparse
    exact accept_iff HostMessage.reads (.same message.toJson) hparse
  · intro message hparse
    exact accept_iff ServerMessage.reads (.same message.toJson) hparse
  · intro message value hwidens hparse
    exact accept_iff HostMessage.reads hwidens hparse
  · intro message value hwidens hparse
    exact accept_iff ServerMessage.reads hwidens hparse

/-- A challenge from a newer coordinator. -/
def newerChallenge : Json :=
  .object [("type", .string "challenge"), ("region", .array [.null, .otherNumber ['-', '1']]),
    ("protocol_version", .number 1), ("nonce", .string "abc")]

def sampleChallenge : ServerMessage := .challenge protocolVersion "abc"

theorem newerChallenge_widens : Json.Widens sampleChallenge.toJson newerChallenge :=
  .object (Json.forall₂_same _) rfl

/-- What the newer coordinator adds is not seen. -/
theorem newer_challenge_accepted :
    ∃ parse : List Char → Option Json, parse newerChallenge.render = some newerChallenge ∧
      accept parse ServerMessage.ofFields newerChallenge.render = .ok sampleChallenge := by
  refine ⟨fun text ↦ if text = newerChallenge.render then some newerChallenge else none,
    if_pos rfl, ?_⟩
  exact ((wire_closure _).2.2.2 sampleChallenge newerChallenge newerChallenge_widens
    (if_pos rfl)).mpr (by decide)

/-! ## A host with many labels -/

def letter (second : Bool) : Char :=
  if second then 'b' else 'a'

theorem letter_facts (second : Bool) : slugChar (letter second) = true ∧
    (letter second).toLower = letter second ∧ Json.escapeSize (letter second) = 1 ∧
    letter second ≠ 'r' := by
  cases second <;> decide

theorem check_letters (second : Bool) (n : Fin 256) :
    checkLabel (List.replicate (n.val + 1) (letter second)) =
      .ok (List.replicate (n.val + 1) (letter second)) := by
  obtain ⟨hslug, hfold, -, -⟩ := letter_facts second
  apply check_label_self
  · simp
  · intro c hc
    rw [List.eq_of_mem_replicate hc]
    exact hslug
  · rw [foldAscii, List.map_replicate, hfold]
  · rw [List.length_replicate]
    omega

def letters (label : Bool × Fin 256) : Label :=
  ⟨String.ofList (List.replicate (label.2.val + 1) (letter label.1)), by
    rw [String.toList_ofList]
    exact check_letters label.1 label.2⟩

theorem letters_toList (label : Bool × Fin 256) :
    (letters label).text.toList = List.replicate (label.2.val + 1) (letter label.1) :=
  String.toList_ofList

theorem letters_text_injective : Function.Injective fun label ↦ (letters label).text := by
  rintro ⟨second, n⟩ ⟨second', n'⟩ h
  have hlist : List.replicate (n.val + 1) (letter second) =
      List.replicate (n'.val + 1) (letter second') := by
    rw [← letters_toList (second, n), ← letters_toList (second', n')]
    exact congrArg String.toList h
  have hlength : n = n' := by
    have := congrArg List.length hlist
    simp only [List.length_replicate] at this
    exact Fin.ext (by omega)
  have hletter : letter second = letter second' := by
    have := congrArg List.head? hlist
    simpa [List.replicate_succ] using this
  have hsecond : second = second' := by
    revert hletter
    cases second <;> cases second' <;> decide
  rw [hlength, hsecond]

theorem quotedSize_letters (label : Bool × Fin 256) :
    Json.quotedSize (letters label).text = label.2.val + 3 := by
  obtain ⟨-, -, hsize, -⟩ := letter_facts label.1
  rw [Json.quotedSize, letters_toList, List.map_replicate, hsize, List.sum_replicate_nat]
  omega

/-- Five hundred and twelve labels. -/
def manyLabels : RoutingLabels where
  hostLabel := ⟨"rm-build-linux-x64", by decide⟩
  additional := Finset.univ.image letters
  separate := by
    intro hmem
    obtain ⟨label, -, hlabel⟩ := Finset.mem_image.mp hmem
    have hhead : some (letter label.1) = some 'r' := by
      have htext := congrArg (fun value : Label ↦ value.text.toList.head?) hlabel
      simpa [letters_toList, List.replicate_succ] using htext
    exact (letter_facts label.1).2.2.2 (Option.some.inj hhead)

theorem sum_sort (texts : Finset String) (f : String → Nat) :
    ((texts.sort (· ≤ ·)).map f).sum = ∑ text ∈ texts, f text := by
  rw [Finset.sum, ← Finset.sort_eq texts (· ≤ ·), Multiset.map_coe, Multiset.sum_coe]

theorem sum_letters : ∑ label : Bool × Fin 256, (label.2.val + 3) = 66816 := by
  rw [Fintype.sum_prod_type, Fintype.sum_bool]
  decide +kernel

theorem manyLabels_size {labels : RoutingLabels}
    (h : labels.additional = Finset.univ.image letters) :
    maxMessageBytes < ((asRegistrationLabels labels).map Json.quotedSize).sum := by
  have himage : labels.additional.image (·.text) =
      Finset.univ.image fun label ↦ (letters label).text := by
    rw [h, Finset.image_image]
    rfl
  have hsum : ∑ text ∈ labels.additional.image (·.text), Json.quotedSize text = 66816 := by
    rw [himage, Finset.sum_image fun _ _ _ _ heq ↦ letters_text_injective heq, ← sum_letters]
    exact Finset.sum_congr rfl fun label _ ↦ quotedSize_letters label
  have hmax : maxMessageBytes < 66816 := by decide
  rw [asRegistrationLabels, List.map_cons, List.sum_cons, sum_sort, hsum]
  omega

/-- A policy that carries given labels. -/
def policyWith (labels : RoutingLabels) : ScalePolicy where
  id := ⟨1⟩
  target := .repository ⟨⟨"acme", acme_owner⟩, ⟨"app", app_repo⟩⟩
  installationId := 1
  hostId := ⟨1⟩
  requestedHostLabel := ⟨"build", build_label⟩
  profileName := .default
  mode := .autoscale ⟨labels, 0, ⟨1, one_nonZero⟩, zero_ordered_one⟩
  enabled := true
  state := .active
  cachePolicy := .retainRunnerPackage
  workspacePolicy := .ephemeral
  executionPolicy := .native
  revision := 0

theorem policyWith_stored (native : PathPlatform) (labels : RoutingLabels) :
    ∃ db, Store.insertPolicy native .empty (policyWith labels) = .ok db ∧
      Store.policies native db = .ok [policyWith labels] := by
  have hread : policyFromRow native (policyRow (policyWith labels)) = .ok (policyWith labels) :=
    policy_read_iff.mpr ⟨⟨⟨rfl, rfl, rfl⟩, fun _ h ↦ by cases h⟩, rfl⟩
  let db : Database := { Database.empty with
    policies := Database.empty.policies.put (policyRow (policyWith labels)) }
  have hvalid : validateProfileInTarget native db (policyWith labels) = .ok () := by
    have hself : isSibling (policyWith labels) (policyRow (policyWith labels)) = false := by
      show (_ && decide ((⟨1⟩ : PolicyId) ≠ ⟨1⟩)) = false
      simp
    have hnone : db.policies.rows.filter (isSibling (policyWith labels)) = [] := by
      show (policyRow (policyWith labels) :: []).filter _ = []
      simp [hself]
    unfold validateProfileInTarget
    rw [hnone]
    rfl
  have hpolicy : Store.readPolicy native db (policyRow (policyWith labels)) =
      .ok (policyWith labels) := by
    simp only [Store.readPolicy, hread, hvalid, bind, Except.bind, pure, Except.pure]
  refine ⟨db, rfl, ?_⟩
  show [policyRow (policyWith labels)].mapM (Store.readPolicy native db) = _
  rw [List.mapM_cons, List.mapM_nil, hpolicy]
  rfl

theorem labels_le_hello (facts : HostFacts) (host : Host) (hostId : String)
    (labels : RoutingLabels) :
    ((asRegistrationLabels labels).map Json.quotedSize).sum ≤
      (HostMessage.hello (hello facts host hostId [policyWith labels])).toJson.size := by
  let profile := advertisedProfile (policyWith labels) labels
  let target : Target := ⟨.repo, (policyWith labels).target.slug, [profile]⟩
  -- From the labels outwards, each value is a field or an item of the next.
  have hlabels : ("labels", Json.array ((asRegistrationLabels labels).map Json.string)) ∈
      [("name", Json.string profile.name), ("labels", .array (profile.labels.map .string)),
        ("enabled", .bool profile.enabled)] := List.mem_cons_of_mem _ List.mem_cons_self
  have hprofiles : ("profiles", Json.array [profile.toJson]) ∈
      [("scope", target.scope.toJson), ("name", .string target.name),
        ("profiles", .array [profile.toJson])] := by
    simp
  have htargets : ("targets", Json.array [target.toJson]) ∈
      ("type", Json.string "hello") :: (hello facts host hostId [policyWith labels]).fields :=
    List.mem_cons_of_mem _ (List.mem_of_getElem? (i := 7) rfl)
  calc ((asRegistrationLabels labels).map Json.quotedSize).sum
      = (((asRegistrationLabels labels).map Json.string).map Json.size).sum := by
        rw [List.map_map]
        rfl
    _ ≤ (Json.array ((asRegistrationLabels labels).map Json.string)).size :=
        Json.sum_le_size_array _
    _ ≤ profile.toJson.size := Json.size_le_size_object hlabels
    _ ≤ (Json.array [profile.toJson]).size := Json.size_le_size_array List.mem_cons_self
    _ ≤ target.toJson.size := Json.size_le_size_object hprofiles
    _ ≤ (Json.array [target.toJson]).size := Json.size_le_size_array List.mem_cons_self
    _ ≤ _ := Json.size_le_size_object htargets

/-- A coordinator refuses a host that its own store allows: with enough labels on one policy its
hello fits into no message, whatever the parser. -/
theorem hello_refused :
    ∃ policies : List ScalePolicy,
      (∃ db, Store.insertPolicy .unix .empty (policyWith manyLabels) = .ok db ∧
        Store.policies .unix db = .ok policies) ∧
      ∀ (parse : List Char → Option Json) (facts : HostFacts) (host : Host) (hostId : String),
        accept parse HostMessage.ofFields
            (HostMessage.hello (hello facts host hostId policies)).encode ≠
          .ok (.hello (hello facts host hostId policies)) := by
  refine ⟨[policyWith manyLabels], policyWith_stored .unix manyLabels, ?_⟩
  intro parse facts host hostId haccepted
  have hlong := Nat.lt_of_lt_of_le (manyLabels_size rfl)
    (labels_le_hello facts host hostId manyLabels)
  rw [HostMessage.encode, accept_long hlong] at haccepted
  cases haccepted

/-! ## The jobs a host is woken for -/

theorem requiredLabels_eq (job : List String) :
    Coordinator.requiredLabels job = (RunsOn.fromJobLabels job).requiredLabels.toOption := by
  unfold Coordinator.requiredLabels RunsOn.requiredLabels
  rw [show (RunsOn.fromJobLabels job).rawLabels = job from rfl]
  cases hfind : job.find? RunsOn.isExpression with
  | some raw =>
    have hexpression : RunsOn.isExpression raw = true := List.find?_some hfind
    have hany : job.any RunsOn.isExpression = true :=
      List.any_eq_true.mpr ⟨raw, List.mem_of_find?_eq_some hfind, hexpression⟩
    exact if_pos hany
  | none =>
    have hany : ¬ job.any RunsOn.isExpression = true := by
      intro h
      obtain ⟨raw, hraw, hexpression⟩ := List.any_eq_true.mp h
      exact List.find?_eq_none.mp hfind raw hraw hexpression
    refine (if_neg hany).trans ?_
    show (if (RunsOn.usable job).isEmpty then none else (RunsOn.usable job).mapM _) =
      (if (RunsOn.usable job).isEmpty then Except.error _
        else (RunsOn.usable job).mapM _).toOption
    split_ifs
    · rfl
    · rw [Result.toOption_mapM]
      congr 1
      funext raw
      cases Label.new raw <;> rfl

theorem mem_asRegistrationLabels {labels : RoutingLabels} {text : String} :
    text ∈ asRegistrationLabels labels ↔
      ∃ label : Label, labels.contains label = true ∧ label.text = text := by
  simp only [asRegistrationLabels, List.mem_cons, Finset.mem_sort, Finset.mem_image,
    RoutingLabels.contains, Bool.or_eq_true, decide_eq_true_eq]
  constructor
  · rintro (rfl | ⟨label, hlabel, rfl⟩)
    · exact ⟨labels.hostLabel, .inl rfl, rfl⟩
    · exact ⟨label, .inr hlabel, rfl⟩
  · rintro ⟨label, rfl | hlabel, rfl⟩
    · exact .inl rfl
    · exact .inr ⟨label, hlabel, rfl⟩

theorem offered_contains (labels : RoutingLabels) (label : Label) :
    ((asRegistrationLabels labels).filterMap fun text ↦ (Label.new text).toOption).contains label =
      labels.contains label := by
  have hread : ∀ other : Label, Label.new other.text = .ok other :=
    fun other ↦ Canonical.new_text check_label_idem other
  rw [Bool.eq_iff_iff, List.contains_iff_mem, List.mem_filterMap]
  constructor
  · intro h
    obtain ⟨text, htext, hnew⟩ := h
    obtain ⟨other, hother, rfl⟩ := mem_asRegistrationLabels.mp htext
    rw [hread other] at hnew
    cases hnew
    exact hother
  · intro h
    refine ⟨label.text, mem_asRegistrationLabels.mpr ⟨label, h, rfl⟩, ?_⟩
    rw [hread label]
    rfl

/-- The coordinator wakes a host for a job exactly when the host's own poll counts it. -/
theorem labels_cover_agrees (labels : RoutingLabels) :
    (∀ job : List String, labelsCover (asRegistrationLabels labels) job =
      (labels.matchesRunsOn (.fromJobLabels job)).isMatch) ∧
    ∀ jobs : List (List String), (labels.tally (jobs.map .fromJobLabels)).matched =
      jobs.countP (labelsCover (asRegistrationLabels labels)) := by
  have hagree : ∀ job : List String, labelsCover (asRegistrationLabels labels) job =
      (labels.matchesRunsOn (.fromJobLabels job)).isMatch := by
    intro job
    cases hrequired : (RunsOn.fromJobLabels job).requiredLabels with
    | error reason =>
      rw [RoutingLabels.isMatch_of_unresolvable hrequired, labelsCover, requiredLabels_eq,
        hrequired]
      rfl
    | ok required =>
      rw [RoutingLabels.isMatch_of_required hrequired, labelsCover, requiredLabels_eq, hrequired]
      show required.all _ = required.all _
      congr 1
      funext label
      exact offered_contains labels label
  refine ⟨hagree, fun jobs ↦ ?_⟩
  rw [RoutingLabels.tally_matched, List.countP_map]
  exact List.countP_congr fun job _ ↦ by rw [hagree job]; rfl

end RunnerManager.App
