import RunnerManager.Platform.Recovery
import RunnerManager.Lib.Json

/-!
# The heartbeat file

How a heartbeat crosses from the guest to Windows: `GuestHeartbeat::write`,
`GuestHeartbeat::read` and `unmanaged_runner_service_count` of
`crates/platform/src/wsl/fence.rs`. The file is replaced as a whole, so what is read is some text
that was written. The parser of texts and the spelling of times are parameters. Read `read_write`
first: a heartbeat that fits the fields of its file is read back as it was written.
-/

namespace RunnerManager

open RunnerManager.Domain Json

namespace Domain.ScaleTarget

def scopeText : TargetScope → String
  | .repository => "repository"
  | .organization => "organization"

def scopeOfText (text : String) : Option TargetScope :=
  if text = "repository" then some .repository
  else if text = "organization" then some .organization
  else none

theorem scopeOfText_scopeText (scope : TargetScope) :
    scopeOfText (scopeText scope) = some scope := by
  cases scope <;> rfl

/-- A target is tagged by its scope and holds its slug. -/
def fields (target : ScaleTarget) : List (String × Json) :=
  [("scope", .string (scopeText target.scope)), ("value", .string target.slug)]

def ofFields (fields : List (String × Json)) : Option ScaleTarget := do
  let text ← readField "scope" readString none fields
  let scope ← scopeOfText text
  let value ← readField "value" readString none fields
  (ScaleTarget.read scope value).toOption

theorem readsBack : ReadsBack (fun target ↦ .object (fields target)) (readObject ofFields) := by
  refine readsBack_object fun target fields h ↦ ?_
  have hnodup : ["scope", "value"].Nodup := by decide
  have hscope : readField "scope" readString none fields = some (scopeText target.scope) :=
    h.readField hnodup 0 rfl readsBack_string
  have hvalue : readField "value" readString none fields = some target.slug :=
    h.readField hnodup 1 rfl readsBack_string
  simp only [ofFields, hscope, hvalue, scopeOfText_scopeText, Option.bind_eq_bind,
    Option.bind_some]
  exact congrArg Except.toOption (read_slug target)

end Domain.ScaleTarget

namespace Platform

/-- `SCHEMA_VERSION`. -/
def recoverySchemaVersion : Nat := 1

/-- `FenceError`, less the paths and the errors of the system. -/
inductive FenceError where
  | io (operation : String)
  | decode
  | schema (found : Nat)
deriving DecidableEq

structure DrainRequest where
  schemaVersion : Nat
  generation : {n : Nat // n < 2 ^ 64}
  requestedAt : Timestamp
deriving DecidableEq

/-- How times are spelled, and how a text is parsed. -/
structure Codec where
  writeTime : Timestamp → String
  readTime : String → Option Timestamp
  parse : List Char → Option Json

namespace GuestHeartbeat

def fieldNames : List String :=
  ["schema_version", "observed_at", "acknowledged_generation", "local_active_attempts",
    "local_busy_attempts", "managed_targets", "unmanaged_runner_services"]

/-- The fields of a heartbeat, in the order they are written. -/
def fields (codec : Codec) (heartbeat : GuestHeartbeat) : List (String × Json) :=
  [("schema_version", .number heartbeat.schemaVersion),
    ("observed_at", .string (codec.writeTime heartbeat.observedAt)),
    ("acknowledged_generation", ofOption .number heartbeat.acknowledgedGeneration),
    ("local_active_attempts", ofOption .number heartbeat.localActiveAttempts),
    ("local_busy_attempts", ofOption .number heartbeat.localBusyAttempts),
    ("managed_targets", .array (heartbeat.managedTargets.map fun target ↦ .object target.fields)),
    ("unmanaged_runner_services", ofOption .number heartbeat.unmanagedRunnerServices)]

/-- An optional unsigned integer; a field that is missing is `None`. -/
def readCount (name : String) (w : Nat) (fields : List (String × Json)) : Option (Option Nat) :=
  (readField name (readOption (readUnsigned w)) (some none) fields).map (·.map (·.val))

/-- A heartbeat from its fields. A field this build does not know is an error. -/
def ofFields (codec : Codec) (fields : List (String × Json)) : Option GuestHeartbeat := do
  if fields.all (·.1 ∈ fieldNames) then
    let schemaVersion ← readField "schema_version" (readUnsigned 32) none fields
    let observed ← readField "observed_at" readString none fields
    let observedAt ← codec.readTime observed
    let acknowledgedGeneration ← readCount "acknowledged_generation" 64 fields
    let localActiveAttempts ← readCount "local_active_attempts" 32 fields
    let localBusyAttempts ← readCount "local_busy_attempts" 32 fields
    let managedTargets ← readField "managed_targets" (readList (readObject ScaleTarget.ofFields))
      none fields
    let unmanagedRunnerServices ← readCount "unmanaged_runner_services" 32 fields
    return { schemaVersion := schemaVersion.val, observedAt, acknowledgedGeneration,
             localActiveAttempts, localBusyAttempts, managedTargets, unmanagedRunnerServices }
  else none

/-- `GuestHeartbeat::write`: the text the file holds from then on. -/
def write (codec : Codec) (heartbeat : GuestHeartbeat) : List Char :=
  (Json.object (heartbeat.fields codec)).renderPretty 0

/-- `GuestHeartbeat::read` of what the file holds, if it could be read. -/
def read (codec : Codec) (file : Option (List Char)) : Option GuestHeartbeat := do
  let text ← file
  let value ← codec.parse text
  readObject (ofFields codec) value

/-- The counts of a heartbeat fit the fields of its file. -/
structure Fits (heartbeat : GuestHeartbeat) : Prop where
  schemaVersion : heartbeat.schemaVersion < 2 ^ 32
  acknowledged : ∀ n ∈ heartbeat.acknowledgedGeneration, n < 2 ^ 64
  active : ∀ n ∈ heartbeat.localActiveAttempts, n < 2 ^ 32
  busy : ∀ n ∈ heartbeat.localBusyAttempts, n < 2 ^ 32
  unmanaged : ∀ n ∈ heartbeat.unmanagedRunnerServices, n < 2 ^ 32

end GuestHeartbeat

/-- What the encoding of one heartbeat relies on: its time is read back from its spelling, and
its text parses as the value it was written from. -/
structure Codec.Keeps (codec : Codec) (heartbeat : GuestHeartbeat) : Prop where
  time : codec.readTime (codec.writeTime heartbeat.observedAt) = some heartbeat.observedAt
  text : codec.parse (heartbeat.write codec) = some (.object (heartbeat.fields codec))

namespace GuestHeartbeat

theorem readCount_eq {name : String} {w : Nat} {own : List (String × Json)} {count : Option Nat}
    (hnodup : (own.map Prod.fst).Nodup) (i : Nat)
    (hget : own[i]? = some (name, ofOption .number count)) (hfits : ∀ n ∈ count, n < 2 ^ w) :
    readCount name w own = some count := by
  obtain ⟨bounded, hbounded⟩ : ∃ bounded : Option {n : Nat // n < 2 ^ w},
      bounded.map (·.val) = count := by
    cases count with
    | none => exact ⟨none, rfl⟩
    | some n => exact ⟨some ⟨n, hfits n rfl⟩, rfl⟩
  have hreads : ReadsBack (ofOption fun n : {n : Nat // n < 2 ^ w} ↦ .number n.val)
      (readOption (readUnsigned w)) := by
    refine readsBack_option (readsBack_unsigned w) fun n h ↦ ?_
    cases h
  obtain ⟨fields, hfields, hcarries⟩ := (Widens.same (.object own)).object_inv
  cases hfields
  have hown : own[i]? = some (name, ofOption (fun n : {n : Nat // n < 2 ^ w} ↦ .number n.val)
      bounded) := by
    rw [hget, ← hbounded]
    cases bounded with
    | none => rfl
    | some n => rfl
  rw [readCount, hcarries.readField hnodup i hown hreads, Option.map_some, hbounded]

theorem ofFields_fields {codec : Codec} {heartbeat : GuestHeartbeat} (hfits : heartbeat.Fits)
    (htime : codec.readTime (codec.writeTime heartbeat.observedAt) = some heartbeat.observedAt) :
    ofFields codec (heartbeat.fields codec) = some heartbeat := by
  have hnames : (heartbeat.fields codec).map Prod.fst = fieldNames := rfl
  have hnodup : ((heartbeat.fields codec).map Prod.fst).Nodup := by
    rw [hnames]
    decide
  have hknown : ((heartbeat.fields codec).all fun field ↦ field.1 ∈ fieldNames) = true := by
    rw [List.all_eq_true]
    intro field hfield
    exact decide_eq_true (hnames ▸ List.mem_map_of_mem hfield)
  obtain ⟨_, hfields, hcarries⟩ := (Widens.same (.object (heartbeat.fields codec))).object_inv
  cases hfields
  have hversion : readField "schema_version" (readUnsigned 32) none (heartbeat.fields codec) =
      some ⟨heartbeat.schemaVersion, hfits.schemaVersion⟩ :=
    hcarries.readField hnodup 0 rfl (readsBack_unsigned 32)
  have hobserved : readField "observed_at" readString none (heartbeat.fields codec) =
      some (codec.writeTime heartbeat.observedAt) :=
    hcarries.readField hnodup 1 rfl readsBack_string
  have htargets : readField "managed_targets" (readList (readObject ScaleTarget.ofFields)) none
      (heartbeat.fields codec) = some heartbeat.managedTargets :=
    hcarries.readField hnodup 5 rfl (readsBack_list ScaleTarget.readsBack)
  simp only [ofFields, hknown, if_true, hversion, hobserved, htime, htargets,
    readCount_eq hnodup 2 rfl hfits.acknowledged, readCount_eq hnodup 3 rfl hfits.active,
    readCount_eq hnodup 4 rfl hfits.busy, readCount_eq hnodup 6 rfl hfits.unmanaged,
    Option.bind_eq_bind, Option.bind_some]
  rfl

theorem read_write {codec : Codec} {heartbeat : GuestHeartbeat} (hfits : heartbeat.Fits)
    (hkeeps : codec.Keeps heartbeat) :
    read codec (some (heartbeat.write codec)) = some heartbeat := by
  show (codec.parse (heartbeat.write codec)).bind (readObject (ofFields codec)) = some heartbeat
  rw [hkeeps.text]
  exact ofFields_fields hfits hkeeps.time

end GuestHeartbeat

/-! ## The audit of runner services -/

/-- What reading one directory of services gives: nothing when it does not exist, and for each
entry its name, unless the entry could not be read. -/
inductive DirectoryRead where
  | notFound
  | failed
  | entries (names : List (Option String))
deriving DecidableEq

def isRunnerService (name : String) : Bool :=
  "actions.runner.".toList.isPrefixOf name.toList && ".service".toList.isSuffixOf name.toList

/-- The distinct runner services of the directories. Entries that could not be read are passed
over. -/
def runnerServices : List DirectoryRead → List String → Option (List String)
  | [], names => some names
  | .notFound :: rest, names => runnerServices rest names
  | .failed :: _, _ => none
  | .entries found :: rest, names =>
    runnerServices rest ((found.filterMap id).foldl
      (fun names name ↦ if isRunnerService name then names.insert name else names) names)

/-- A count that a `u32` holds. -/
def u32TryFrom (n : Nat) : Option Nat :=
  if n < 2 ^ 32 then some n else none

/-- `unmanaged_runner_service_count` of a Linux guest. -/
def unmanagedRunnerServiceCount (directories : List DirectoryRead) : Option Nat := do
  let names ← runnerServices directories []
  u32TryFrom names.length

/-- The audit saw everything: each directory it read, and each entry of it. -/
def DirectoryRead.Succeeded : DirectoryRead → Prop
  | notFound => True
  | failed => False
  | entries names => none ∉ names

/-- Each entry of the directories that were read was read too. -/
def DirectoryRead.EntriesRead : DirectoryRead → Prop
  | entries names => none ∉ names
  | _ => True

theorem notFailed_of_runnerServices {directories : List DirectoryRead} {names found : List String}
    (h : runnerServices directories names = some found) : .failed ∉ directories := by
  induction directories generalizing names with
  | nil => exact List.not_mem_nil
  | cons directory rest ih =>
    cases directory with
    | notFound =>
      intro hmem
      exact ih h ((List.mem_cons.mp hmem).resolve_left fun heq ↦ by cases heq)
    | failed => cases h
    | entries names =>
      intro hmem
      exact ih h ((List.mem_cons.mp hmem).resolve_left fun heq ↦ by cases heq)

theorem succeeded_iff_entriesRead {directories : List DirectoryRead} {count : Nat}
    (h : unmanagedRunnerServiceCount directories = some count) :
    (∀ directory ∈ directories, directory.Succeeded) ↔
      ∀ directory ∈ directories, directory.EntriesRead := by
  obtain ⟨names, hnames, -⟩ := Option.bind_eq_some_iff.mp h
  have hread := notFailed_of_runnerServices hnames
  refine forall₂_congr fun directory hdirectory ↦ ?_
  cases directory with
  | notFound => exact Iff.rfl
  | failed => exact absurd hdirectory hread
  | entries names => exact Iff.rfl

end Platform

end RunnerManager
