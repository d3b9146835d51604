import RunnerManager.Agent.Launch
import RunnerManager.Agent.Providers
import RunnerManager.Lib.Program
import RunnerManager.Platform.Fence

/-!
# The Docker journal

`crates/agent/src/docker_cleanup.rs` and `docker_cleanup/proxy.rs`: which creations are
journalled, how what they made is captured, and the sweep that removes it once the attempt is
cleaned. Read `sweepEntry` first.

The engine and the filesystem are called; nothing is assumed about their answers. A program that
holds the journal by reference hands it back with its error, as far as it had changed it. SHA-256
and `Uuid::new_v4` are parameters.
-/

namespace RunnerManager.Agent.DockerCleanup

open RunnerManager.Domain RunnerManager.Platform RunnerManager.Result

/-! ## The journal -/

/-- An `io::Error` with its text. -/
abbrev DockerError := String

def hostLabel : String := "runner-manager.host"
def attemptLabel : String := "runner-manager.attempt"
def operationLabel : String := "runner-manager.operation"
def retainLabel : String := "runner-manager.retain"

def schema : Nat := 1

def pendingEngine : String := "runner-manager-pending-engine"

inductive Mode where
  | off
  | report
  | apply
deriving DecidableEq

inductive Kind where
  | container
  | volume
  | network
deriving DecidableEq

def Kind.collection : Kind → String
  | container => "containers"
  | volume => "volumes"
  | network => "networks"

structure Intent where
  id : String
  kind : Kind
  explicitVolumeDestinations : List String
  inheritsVolumes : Bool
  settled : Bool
deriving DecidableEq

structure Resource where
  kind : Kind
  id : String
  created : String
  operation : String
  implicitVolume : Bool
deriving DecidableEq

structure Journal where
  schema : Nat
  host : HostId
  attempt : AttemptId
  repository : String
  upstream : String
  engine : String
  proxy : Option ProcessIdentity
  intents : List Intent
  resources : List Resource
  lastReportedSecs : Option Nat
deriving DecidableEq

/-- A digit of an identifier: hexadecimal and not a capital. -/
def isLowerHex (c : Char) : Bool :=
  c.isDigit || ('a' ≤ c && c ≤ 'f')

def validId (value : String) : Bool :=
  value.toList.length == 64 && value.toList.all isLowerHex

/-- `valid_operation`: the hyphenated spelling of a UUID. -/
def validOperation (value : String) : Bool :=
  (value.toList.splitOn '-').map List.length == [8, 4, 4, 4, 12]
    && value.toList.all fun c ↦ isLowerHex c || c == '-'

/-- The associations of an intent that a journal may hold. -/
def Intent.wellKept (intent : Intent) : Bool :=
  intent.explicitVolumeDestinations.all validId
    && (intent.kind = .container
      || intent.explicitVolumeDestinations.isEmpty && !intent.inheritsVolumes)

/-- The associations of a resource that a journal may hold. -/
def Resource.wellKept (intents : List Intent) (resource : Resource) : Bool :=
  match intents.find? (·.id = resource.operation) with
  | none => false
  | some intent =>
    if resource.implicitVolume then
      resource.kind = .volume && intent.kind = .container && !intent.inheritsVolumes
    else resource.kind = intent.kind

namespace Journal

def new (host : HostId) (attempt : AttemptId) (repository upstream engine : String) : Journal where
  schema := DockerCleanup.schema
  host
  attempt
  repository
  upstream
  engine
  proxy := none
  intents := []
  resources := []
  lastReportedSecs := none

/-- `Journal::load`, of a regular file within the size limit that holds this journal. -/
def load (value : Journal) : Except DockerError Journal :=
  if value.schema ≠ DockerCleanup.schema ∨ value.upstream.toList.head? ≠ some '/'
      ∨ value.engine = ""
      ∨ (value.engine = pendingEngine
        ∧ (value.intents ≠ [] ∨ value.resources ≠ [] ∨ value.proxy.isSome))
      ∨ (∃ intent ∈ value.intents, ¬ validOperation intent.id)
      ∨ (∃ resource ∈ value.resources,
        ¬ validId resource.id ∨ ¬ validOperation resource.operation) then
    .error "invalid Docker journal identity"
  else if ¬ (value.intents.map (·.id)).Nodup
      ∨ ¬ (value.resources.map fun resource ↦ (resource.kind.collection, resource.id)).Nodup
      ∨ (value.intents ≠ [] ∧ value.proxy = none)
      ∨ (∃ intent ∈ value.intents, ¬ intent.wellKept)
      ∨ (∃ resource ∈ value.resources, ¬ resource.wellKept value.intents) then
    .error "invalid Docker journal resource associations"
  else .ok value

/-- `Journal::labels`, in the order of the keys. -/
def labels (journal : Journal) (operation : String) : List (String × String) :=
  [(attemptLabel, uuidText journal.attempt.value),
    (hostLabel, uuidText journal.host.value),
    (operationLabel, operation)]

end Journal

/-! ## Creations -/

def labelsOf (value : Json) (kind : Kind) : Json :=
  match kind with
  | .container => (pointer ["Config", "Labels"] value).getD .null
  | .volume | .network => (fieldOf "Labels" value).getD .null

def retained (labels : Json) : Bool :=
  (fieldOf retainLabel labels).bind asStr = some "true"

def creates (path : List Char) : Option Kind :=
  let endpoint := path.takeWhile (· ≠ '?')
  if "/containers/create".toList.isSuffixOf endpoint then some .container
  else if "/volumes/create".toList.isSuffixOf endpoint then some .volume
  else if "/networks/create".toList.isSuffixOf endpoint then some .network
  else none

def queryName (path : List Char) : Option (List Char) :=
  (((path.dropWhile (· ≠ '?')).drop 1).splitOn '&').findSome? ("name=".toList.isPrefixOf? ·)

def buildkit : String := "/var/lib/buildkit"

/-- A bind of a builder's state: its destination, or the source where it has none. -/
def bindsBuildkit (bind : String) : Bool :=
  match bind.toList.splitOn ':' with
  | _ :: destination :: _ => destination = buildkit.toList
  | [source] => source = buildkit.toList
  | [] => false

def isBuilder (path : List Char) (hostConfig : Json) : Bool :=
  (queryName path).any ("buildx_buildkit_".toList.isPrefixOf ·)
    || ((fieldOf "Mounts" hostConfig).bind asArray).any (·.any fun mount ↦
      (fieldOf "Target" mount).bind asStr = some buildkit)
    || ((fieldOf "Binds" hostConfig).bind asArray).any (·.any fun bind ↦
      (asStr bind).any bindsBuildkit)

def ownedLabels (journal : Journal) (operation : String) (labels : Json) :
    Except DockerError (List (String × Json)) := do
  let own ← match labels with
    | .object fields => .ok fields
    | .null => .ok []
    | _ => .error "invalid Docker labels"
  let added := journal.labels operation
  if added.any fun label ↦ own.any (·.1 = label.1) then
    .error "Docker ownership labels already supplied"
  else .ok (own ++ added.map fun label ↦ (label.1, .string label.2))

section Intents

variable (digest : String → String)

/-- The destinations the binds name, as digests. -/
def bindDestinations : List Json → Except DockerError (List String)
  | [] => .ok []
  | bind :: binds => do
    let text ← match asStr bind with
      | some text => .ok text
      | none => .error "invalid Docker bind"
    let rest ← bindDestinations binds
    match text.toList.splitOn ':' with
    | _ :: destination :: _ => .ok (digest (String.ofList destination) :: rest)
    | _ => .ok rest

/-- The targets of mounts with a source, as digests. -/
def mountDestinations : List Json → Except DockerError (List String)
  | [] => .ok []
  | mount :: mounts => do
    if ((fieldOf "Source" mount).bind asStr).any (· ≠ "") then
      let target ← match (fieldOf "Target" mount).bind asStr with
        | some target => .ok target
        | none => .error "missing mount target"
      let rest ← mountDestinations mounts
      .ok (digest target :: rest)
    else mountDestinations mounts

/-- `creation_intent`, with the identifier `Uuid::new_v4` gives. The body comes back with the
ownership labels. -/
def creationIntent (journal : Journal) (operation : String) (path : List Char) (body : Json) :
    Except DockerError (Option (Intent × Json)) :=
  match creates path with
  | none => .ok none
  | some kind =>
    match body with
    | .object fields => do
      let labels := (fieldOf "Labels" body).getD .null
      if retained labels then return none
      if kind = .volume ∧ ((fieldOf "Name" body).bind asStr).any (· ≠ "") then return none
      let hostConfig := (fieldOf "HostConfig" body).getD .null
      if kind = .container ∧ isBuilder path hostConfig then return none
      let owned ← ownedLabels journal operation labels
      let binds ← bindDestinations digest
        (((fieldOf "Binds" hostConfig).bind asArray).getD [])
      let mounts ← mountDestinations digest
        (((fieldOf "Mounts" hostConfig).bind asArray).getD [])
      let inherits := ((fieldOf "VolumesFrom" hostConfig).bind asArray).any (· ≠ [])
      return some (
        { id := operation
          kind
          explicitVolumeDestinations := binds ++ mounts
          inheritsVolumes := inherits
          settled := false },
        .object (fields.filter (·.1 ≠ "Labels") ++ [("Labels", .object owned)]))
    | _ => .error "expected Docker creation object"

end Intents

/-! ## The engine -/

structure Reply where
  status : Nat
  body : Json

/-- A request of the cleanup; it sends no body. -/
structure Request where
  method : String
  path : String
deriving DecidableEq

/-- What the engine answers, if the exchange does not fail. -/
abbrev Request.answer (_ : Request) : Type := Except DockerError Reply

/-- A program over the engine that holds a journal. -/
abbrev Docker (α : Type) := Program Request Request.answer (DockerError × Journal) α

def request (journal : Journal) (method path : String) : Docker Reply := do
  let reply ← .perform ⟨method, path⟩
  .ofExcept (·, journal) reply

def inspected (journal : Journal) (kind : Kind) (id : String) : Docker (Option Json) := do
  if ¬ validId id then .fail ("invalid Docker resource ID", journal)
  else do
    let suffix := if kind = .container then "/json" else ""
    let reply ← request journal "GET" ("/" ++ kind.collection ++ "/" ++ id ++ suffix)
    if reply.status = 404 then pure none
    else if reply.status = 200 then pure (some reply.body)
    else .fail ("Docker inspection failed", journal)

def created (value : Json) : Except DockerError String :=
  match ((fieldOf "Created" value <|> fieldOf "CreatedAt" value).bind asStr).filter (· ≠ "") with
  | some text => .ok text
  | none => .error "missing Docker creation fingerprint"

def matchesLabels (journal : Journal) (intent : Intent) (labels : Json) : Bool :=
  !retained labels && (journal.labels intent.id).all fun label ↦
    (fieldOf label.1 labels).bind asStr = some label.2

def addResource (journal : Journal) (resource : Resource) : Journal :=
  if journal.resources.any fun known ↦ known.kind = resource.kind && known.id = resource.id then
    journal
  else { journal with resources := journal.resources ++ [resource] }

/-- The mounts of a container, one after the other: the anonymous volumes the workflow did not
supply. -/
def captureMounts (digest : String → String) (intent : Intent) :
    List Json → Journal → Docker Journal
  | [], journal => pure journal
  | mount :: mounts, journal =>
    if (fieldOf "Type" mount).bind asStr ≠ some "volume" then
      captureMounts digest intent mounts journal
    else
      match (fieldOf "Destination" mount).bind asStr with
      | none => .fail ("missing volume destination", journal)
      | some destination =>
        if intent.explicitVolumeDestinations.contains (digest destination) then
          captureMounts digest intent mounts journal
        else
          match (fieldOf "Name" mount).bind asStr with
          | none => .fail ("missing volume name", journal)
          | some name =>
            if ¬ validId name then captureMounts digest intent mounts journal
            else do
              match ← inspected journal .volume name with
              | none => captureMounts digest intent mounts journal
              | some volume =>
                let labels := labelsOf volume .volume
                if retained labels ∨
                    fieldOf "com.docker.volume.anonymous" labels = none then
                  captureMounts digest intent mounts journal
                else do
                  let created ← .ofExcept (·, journal) (created volume)
                  captureMounts digest intent mounts (addResource journal {
                    kind := .volume
                    id := name
                    created
                    operation := intent.id
                    implicitVolume := true })

def captureCreated (digest : String → String) (journal : Journal) (intent : Intent)
    (id : String) : Docker Journal := do
  match ← inspected journal intent.kind id with
  | none => pure journal
  | some value =>
    if ¬ matchesLabels journal intent (labelsOf value intent.kind) then
      .fail ("Docker creation ownership mismatch", journal)
    else do
      let created ← .ofExcept (·, journal) (created value)
      let journal := addResource journal {
        kind := intent.kind
        id
        created
        operation := intent.id
        implicitVolume := false }
      if intent.kind ≠ .container ∨ intent.inheritsVolumes then pure journal
      else captureMounts digest intent (((fieldOf "Mounts" value).bind asArray).getD []) journal

/-- The name or the identifier in a reply of a kind. -/
def identityOf (kind : Kind) (body : Json) : Option String :=
  (if kind = .volume then fieldOf "Name" body
    else fieldOf "Id" body <|> fieldOf "ID" body).bind asStr

def percentEncode (value : List Char) : List Char :=
  value.flatMap fun c ↦
    if c.isAlphanum || ['-', '_', '.', '~'].contains c then [c]
    else (String.utf8EncodeChar c).flatMap fun byte ↦
      '%' :: ((Nat.toDigits 16 byte.toNat).leftpad 2 '0').map Char.toUpper

/-- The inventory of the resources with an operation's labels. -/
def inventoryPath (journal : Journal) (intent : Intent) : String :=
  let labels := (journal.labels intent.id).map fun label ↦ Json.string (label.1 ++ "=" ++ label.2)
  let filter := String.ofList (percentEncode (Json.object [("label", .array labels)]).render)
  match intent.kind with
  | .container => "/containers/json?all=true&filters=" ++ filter
  | .volume => "/volumes?filters=" ++ filter
  | .network => "/networks?filters=" ++ filter

/-- The entries of an inventory. A list of volumes may be `null`. -/
def inventoryEntries (kind : Kind) (body : Json) : Option (List Json) :=
  match if kind = .volume then fieldOf "Volumes" body else some body with
  | some (.array entries) => some entries
  | some .null => if kind = .volume then some [] else none
  | _ => none

/-- Capture every entry of an inventory. -/
def captureEntries (digest : String → String) (intent : Intent) :
    List Json → Journal → Docker Journal
  | [], journal => pure journal
  | entry :: entries, journal =>
    match identityOf intent.kind entry with
    | none => .fail ("Docker recovery inventory has no ID", journal)
    | some id => do
      let journal ← captureCreated digest journal intent id
      captureEntries digest intent entries journal

/-- The loop of `recover_creations`. -/
def recoverIntents (digest : String → String) : List Intent → Journal → Docker Journal
  | [], journal => pure journal
  | intent :: intents, journal => do
    let reply ← request journal "GET" (inventoryPath journal intent)
    if reply.status ≠ 200 then .fail ("Docker recovery inventory failed", journal)
    else
      match inventoryEntries intent.kind reply.body with
      | none => .fail ("invalid Docker recovery inventory", journal)
      | some entries => do
        let journal ← captureEntries digest intent entries journal
        recoverIntents digest intents journal

def recoverCreations (digest : String → String) (journal : Journal) : Docker Journal :=
  recoverIntents digest journal.intents journal

/-! ## One creation -/

/-- The first part of `handle` under the lock: the journal that is written before the creation
is forwarded, and the intent. -/
def recordIntent (digest : String → String) (journal : Journal) (operation : String)
    (path : List Char) (body : Json) : Except DockerError (Journal × Option Intent) := do
  match ← creationIntent digest journal operation path body with
  | none => return (journal, none)
  | some (intent, _) =>
    return ({ journal with intents := journal.intents ++ [intent] }, some intent)

def settleFirst (id : String) : List Intent → Option (List Intent)
  | [] => none
  | intent :: intents =>
    if intent.id = id then some ({ intent with settled := true } :: intents)
    else (settleFirst id intents).map (intent :: ·)

/-- The second part of `handle` under the lock, after an answer: the journal that is written
before the answer is passed on. -/
def settleIntent (digest : String → String) (journal : Journal) (intent : Intent)
    (body : Json) : Docker Journal :=
  match identityOf intent.kind body with
  | none => .fail ("Docker create returned no identity", journal)
  | some id => do
    let journal ← captureCreated digest journal intent id
    match settleFirst intent.id journal.intents with
    | none => .fail ("missing Docker creation intent", journal)
    | some intents => pure { journal with intents }

/-! ## Cleaning -/

/-- What a sweep reports. The details of single resources are counted by their outcome. -/
structure SweepReport where
  candidates : Nat
  removed : Nat
  pending : Nat
  protected' : Nat
  details : List (AttemptId × Kind × String × String)
  detailsTruncated : Bool
deriving DecidableEq

namespace SweepReport

/-- `SweepReport::default`. -/
def empty : SweepReport := ⟨0, 0, 0, 0, [], false⟩

def appendDetails (report : SweepReport) (details : List (AttemptId × Kind × String × String)) :
    SweepReport :=
  { report with
    details := report.details ++ details.take (1000 - report.details.length)
    detailsTruncated :=
      report.detailsTruncated || decide (1000 - report.details.length < details.length) }

def detail (report : SweepReport) (journal : Journal) (resource : Resource) (outcome : String) :
    SweepReport :=
  report.appendDetails [(journal.attempt, resource.kind, resource.id, outcome)]

end SweepReport

/-- Containers, then volumes, then networks. -/
def dependencyOrder (resources : List Resource) : List Resource :=
  resources.filter (·.kind = .container) ++ resources.filter (·.kind = .volume)
    ++ resources.filter (·.kind = .network)

/-- Whether an inspected resource is still the journal's. -/
def ownsResource (journal : Journal) (intent : Intent) (resource : Resource) (value : Json) :
    Bool :=
  let labels := labelsOf value resource.kind
  if resource.implicitVolume then
    resource.kind = .volume && !intent.inheritsVolumes
      && (fieldOf "com.docker.volume.anonymous" labels).isSome && !retained labels
  else matchesLabels journal intent labels

/-- The loop of `clean_resources`: what is kept, and the report. -/
def cleanEach (journal : Journal) (mode : Mode) :
    List Resource → List Resource → SweepReport → Docker (List Resource × SweepReport)
  | [], kept, report => pure (kept, report)
  | resource :: resources, kept, report => do
    match ← inspected journal resource.kind resource.id with
    | none => cleanEach journal mode resources kept report
    | some value =>
      match journal.intents.find? (·.id = resource.operation) with
      | none => .fail ("resource without creation intent", journal)
      | some intent => do
        let owned := ownsResource journal intent resource value
        let created ← if owned then .ofExcept (·, journal) (created value) else pure ""
        if !owned || created ≠ resource.created then
          cleanEach journal mode resources (kept ++ [resource])
            ({ report with protected' := report.protected' + 1 }.detail journal resource
              "protected")
        else
          let report := { report with candidates := report.candidates + 1 }
          if mode = .report then
            cleanEach journal mode resources (kept ++ [resource])
              (report.detail journal resource "would_remove")
          else do
            let suffix := if resource.kind = .container then "?force=true" else ""
            let reply ← request journal "DELETE"
              ("/" ++ resource.kind.collection ++ "/" ++ resource.id ++ suffix)
            if reply.status = 200 ∨ reply.status = 204 ∨ reply.status = 404 then
              cleanEach journal mode resources kept
                ({ report with removed := report.removed + 1 }.detail journal resource
                  "removed")
            else
              cleanEach journal mode resources (kept ++ [resource])
                ({ report with pending := report.pending + 1 }.detail journal resource
                  "pending")

def cleanResources (journal : Journal) (mode : Mode) : Docker (Journal × SweepReport) := do
  if mode = .off then pure (journal, .empty)
  else do
    let info ← request journal "GET" "/info"
    if info.status ≠ 200 ∨ (fieldOf "ID" info.body).bind asStr ≠ some journal.engine then
      .fail ("Docker engine identity changed; cleanup refused", journal)
    else do
      let journal := { journal with resources := dependencyOrder journal.resources }
      let (kept, report) ← cleanEach journal mode journal.resources [] .empty
      pure ({ journal with resources := kept }, report)

/-! ## The sweep -/

/-- What the sweep is told of an attempt. -/
structure AttemptView where
  cleaned : Bool
  native : Bool
deriving DecidableEq

/-- What the sweep asks. A directory of the journal root is named by its entry; the engine is
reached through the journal's own socket. -/
inductive SweepCall where
  | readJournal (name : String)
  | lookup (attempt : AttemptId)
  | writeStop (name : String)
  | recheck (identity : ProcessIdentity)
  | now
  | engine (upstream : String) (request : Request)
  | writeJournal (name : String) (journal : Journal)
  | readDirectory (name : String)
  | removeFile (name file : String)
  | removeDirectory (name : String)

/-- What it is answered. A file that was not there is removed as well. -/
def SweepCall.answer : SweepCall → Type
  | readJournal _ => Except DockerError Journal
  | lookup _ => Except DockerError (Option AttemptView)
  | writeStop _ | writeJournal .. | removeFile .. | removeDirectory _ => Except DockerError Unit
  | recheck _ => Except DockerError Adoption
  | now => Except DockerError Nat
  | engine .. => Except DockerError Reply
  | readDirectory _ => Except DockerError (List String)

/-- A program of the sweep. It returns what it adds to the total; so does an error. -/
abbrev Sweep (α : Type) := Program SweepCall SweepCall.answer SweepReport α

/-- Make a call that may fail. -/
def attempt {α : Type} (c : SweepCall) (h : c.answer = Except DockerError α)
    (total : SweepReport) : Sweep α := do
  let answer ← .perform c
  match cast h answer with
  | .ok value => pure value
  | .error _ => .fail total

/-- `["journal.json", "runner.json", "ready", "stop", "s"]`. -/
def journalFiles : List String := ["journal.json", "runner.json", "ready", "stop", "s"]

def removeFiles (name : String) (total : SweepReport) : List String → Sweep Unit
  | [] => pure ()
  | file :: files => do
    attempt (.removeFile name file) rfl total
    removeFiles name total files

/-- `remove_journal_files`: an entry it does not know keeps the directory. -/
def removeJournalFiles (name : String) (total : SweepReport) : Sweep Unit := do
  let entries ← attempt (.readDirectory name) rfl total
  if entries.all journalFiles.contains then do
    removeFiles name total journalFiles
    attempt (.removeDirectory name) rfl total
  else .fail total

/-- Run a program over the journal's engine; its error ends the entry. -/
def onEngine {α : Type} (upstream : String) (total : SweepReport) (p : Docker α) : Sweep α := do
  let result ← (p.mapCalls (SweepCall.engine upstream) (fun _ answer ↦ answer)).outcome
  match result with
  | .ok value => pure value
  | .error _ => .fail total

/-- The journal of one attempt, in `sweep`. -/
def sweepEntry (digest : String → String) (host : HostId) (configured : Mode) (dryRun : Bool)
    (name : String) : Sweep SweepReport := do
  let mode := if dryRun then .report else configured
  let value ← attempt (.readJournal name) rfl .empty
  let journal ← .ofExcept (fun _ ↦ .empty) value.load
  if journal.host ≠ host ∨ uuidText journal.attempt.value ≠ name then .fail .empty
  else do
    let found ← attempt (.lookup journal.attempt) rfl .empty
    match found with
    | none => pure .empty
    | some found =>
      if ¬ found.cleaned ∨ ¬ found.native then pure .empty
      else do
        attempt (.writeStop name) rfl .empty
        let gone ← match journal.proxy with
          | none => pure true
          | some identity => do
            let adoption ← attempt (.recheck identity) rfl .empty
            pure (adoption ≠ .live)
        if ¬ gone then pure { SweepReport.empty with pending := 1 }
        else if mode = .off then pure .empty
        else if journal.intents = [] ∧ journal.resources = [] then do
          removeJournalFiles name .empty
          pure .empty
        else do
          let now ← attempt .now rfl .empty
          if mode = .report ∧ ¬ dryRun ∧ journal.lastReportedSecs.any (fun previous ↦
              previous ≤ now && now - previous < 3600) then
            pure .empty
          else do
            let info ← onEngine journal.upstream .empty (request journal "GET" "/info")
            if info.status ≠ 200 ∨ (fieldOf "ID" info.body).bind asStr ≠ some journal.engine
                ∨ (fieldOf "OSType" info.body).bind asStr ≠ some "linux" then
              .fail .empty
            else do
              let journal ← onEngine journal.upstream .empty (recoverCreations digest journal)
              attempt (.writeJournal name journal) rfl .empty
              let (journal, report) ← onEngine journal.upstream .empty
                (cleanResources journal mode)
              let journal :=
                if mode = .report then { journal with lastReportedSecs := some now } else journal
              attempt (.writeJournal name journal) rfl .empty
              let unresolved := journal.intents.countP (! ·.settled)
              let total := { report with pending := report.pending + unresolved }
              if journal.resources = [] ∧ unresolved = 0 then do
                removeJournalFiles name total
                pure total
              else pure total

/-- The totals of two journals. -/
def SweepReport.plus (total added : SweepReport) : SweepReport :=
  { total with
    candidates := total.candidates + added.candidates
    removed := total.removed + added.removed
    pending := total.pending + added.pending
    protected' := total.protected' + added.protected'
    detailsTruncated := total.detailsTruncated || added.detailsTruncated }.appendDetails
      added.details

/-- The loop of `sweep` over the directories of the journal root; one that fails is pending. -/
def sweepEntries (digest : String → String) (host : HostId) (configured : Mode) (dryRun : Bool) :
    List String → SweepReport → Sweep SweepReport
  | [], total => pure total
  | name :: names, total =>
    if ¬ validOperation name then sweepEntries digest host configured dryRun names total
    else do
      let result ← (sweepEntry digest host configured dryRun name).outcome
      match result with
      | .ok added => sweepEntries digest host configured dryRun names (total.plus added)
      | .error added =>
        let added := { added with pending := added.pending + 1 }
        sweepEntries digest host configured dryRun names (total.plus added)

end RunnerManager.Agent.DockerCleanup
