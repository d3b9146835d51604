import RunnerManager.Lib.Text
import Mathlib.Logic.Function.Basic
import Mathlib.Data.List.Nodup

/-!
# Asking the running service

`crates/platform/src/service_request.rs`: commands leave requests in a directory, the one service
takes and answers them. A step is one file operation or one look at the clock of one party, and any
party may be next. What the exchange promises is `Settled`, in the module that follows.
-/

namespace RunnerManager.Platform.ServiceRequest

open RunnerManager.Text

/-! ## Identifiers and files -/

def maxId : Nat := 64

def validId (id : List Char) : Bool :=
  !id.isEmpty && decide (byteLen id ≤ maxId) &&
    id.all fun c ↦ isAsciiAlphanumeric c || c == '-' || c == '.' || c == '_'

/-- The identifier an asking command chose: a time, a process and a count. -/
abbrev RequestId := {id : List Char // validId id = true}

/-- `UNCOLLECTED`, in nanoseconds. -/
def uncollected : Nat := 10 * 60 * 10 ^ 9

/-- `Slots`: the names of the two files of a channel, or how the names of a request's files
begin. -/
inductive Slots where
  | one (request result : List Char)
  | perRequest (stem : List Char)

namespace Slots

/-- `request_file`, in the directory of the channel. -/
def requestFile : Slots → List Char → List Char
  | one request _, _ => request
  | perRequest stem, id => stem ++ '.' :: (id ++ ".request".toList)

def resultFile : Slots → List Char → List Char
  | one _ result, _ => result
  | perRequest stem, id => stem ++ '.' :: (id ++ ".result".toList)

end Slots

/-- What follows the stem and the dot in the name of a file. -/
def afterStem (stem name : List Char) : Option (List Char) :=
  (name.dropPrefix? stem).bind (·.dropPrefix? ['.'])

/-- The identifier in the name of a request file. -/
def entryId (stem name : List Char) : Option (List Char) :=
  (afterStem stem name).bind (·.dropSuffix? ".request".toList)

def isResult (stem name : List Char) : Bool :=
  (afterStem stem name).any (".result".toList.isSuffixOf ·)

/-- The first bytes of a text, where no character is cut. -/
def frontBytes : Nat → List Char → Option (List Char)
  | _, [] => some []
  | 0, _ :: _ => some []
  | n + 1, c :: rest =>
    if c.utf8Size ≤ n + 1 then (frontBytes (n + 1 - c.utf8Size) rest).map (c :: ·) else none

/-- `read_request` of a regular file. -/
def readRequest (text : List Char) : Option RequestId :=
  match frontBytes (maxId + 2) text with
  | none => none
  | some front => if h : validId (trim front) = true then some ⟨trim front, h⟩ else none

/-! ## The parties -/

inductive AskError where
  | notSent (detail : String)
  | notTaken (seconds : Nat)
  | noAnswer (seconds : Nat)
  | refused (detail : String)
deriving DecidableEq

/-- `Wait`, in nanoseconds; the poll is a pause and may be any. -/
structure Wait where
  taken : Nat
  finished : Nat

/-- Where `ask_with` stands. -/
inductive Asker (α : Type) where
  | idle
  | sent
  | looking (started : Nat)
  | pending (started : Nat)
  | withdrawing
  | gone
  | waiting (taken : Nat)
  | missed (taken : Nat)
  | collecting (outcome : Except String α)
  | returned (result : Except AskError α)

/-- Where the service stands: between two calls, or in `take`. -/
inductive Service where
  | idle
  | found
  | read (id : Option RequestId)
  | sweeping (names : List (List Char))

/-- Who removed a request: the service, that then returns an identifier or none, or an asker. -/
inductive Remover where
  | service (returns : Option RequestId)
  | asker (id : RequestId)

/-- The files, the parties, and what was taken, answered and removed so far. An answer is marked
when it came after its asker had returned. -/
structure Exchange (α : Type) where
  now : Nat
  requests : List Char → Option (List Char)
  results : List Char → Option (List Char × Except String α × Nat)
  asker : RequestId → Asker α
  service : Service
  taken : List RequestId
  answered : RequestId → Option (Except String α × Bool)
  removals : List (List Char × Remover)

/-- Nobody has asked yet. -/
def Exchange.start {α : Type} : Exchange α where
  now := 0
  requests _ := none
  results _ := none
  asker _ := .idle
  service := .idle
  taken := []
  answered _ := none
  removals := []

namespace Asker

/-- `ask_with` has returned. -/
def done {α : Type} : Asker α → Bool
  | returned _ => true
  | _ => false

def ofOutcome {α : Type} (outcome : Except String α) : Asker α :=
  returned (outcome.mapError .refused)

end Asker

/-! ## Steps -/

/-- One step of one party. A failed file operation is a step of its own. -/
inductive Event (α : Type) where
  | tick (passed : Nat)
  | leave (id : RequestId)
  | leaveFails (id : RequestId) (detail : String)
  | start (id : RequestId)
  | look (id : RequestId)
  | lookFails (id : RequestId)
  | patience (id : RequestId)
  | withdraw (id : RequestId)
  | withdrawFails (id : RequestId)
  | settle (id : RequestId)
  | readAnswer (id : RequestId)
  | readAnswerFails (id : RequestId)
  | expire (id : RequestId)
  | collect (id : RequestId)
  | collectFails (id : RequestId)
  | find
  | readSlot
  | readSlotFails
  | removeSlot
  | removeSlotFails
  | list (names : List (List Char))
  | entry
  | entryFails
  | answer (id : RequestId) (outcome : Except String α)

section

variable {α : Type}

namespace Exchange

def Held (slots : Slots) (s : Exchange α) (id : RequestId) : Prop :=
  s.requests (slots.requestFile id.val) = some id.val

/-- `pending` of `ask_with`. -/
def pendingNow (slots : Slots) (s : Exchange α) (id : RequestId) : Bool :=
  match slots with
  | .one request _ => decide ((s.requests request).bind readRequest = some id)
  | .perRequest _ => (s.requests (slots.requestFile id.val)).isSome

/-- `read_answer`. -/
def answerTo (slots : Slots) (s : Exchange α) (id : RequestId) : Option (Except String α) :=
  match s.results (slots.resultFile id.val) with
  | some (request, outcome, _) => if request = id.val then some outcome else none
  | none => none

def move (s : Exchange α) (id : RequestId) (next : Asker α) : Exchange α :=
  { s with asker := Function.update s.asker id next }

/-- The service removes a request and returns what it took. -/
def take (s : Exchange α) (file text : List Char) (id : Option RequestId) : Exchange α :=
  { s with
    requests := Function.update s.requests file none
    taken := s.taken ++ id.toList
    removals := s.removals ++ [(text, Remover.service id)] }

end Exchange

/-- The identifier of a file name, where it is one. -/
def checkId (id : List Char) : Option RequestId :=
  if h : validId id = true then some ⟨id, h⟩ else none

/-- What an event does, where the party that acts stands at it. -/
inductive Step (slots : Slots) (wait : Wait) : Exchange α → Event α → Exchange α → Prop
  | tick (s : Exchange α) (passed : Nat) :
      Step slots wait s (.tick passed) { s with now := s.now + passed }
  | leave {s : Exchange α} {id : RequestId} (hat : s.asker id = .idle) :
      Step slots wait s (.leave id) ({ s with
        requests := Function.update s.requests (slots.requestFile id.val) (some id.val) }.move id
          .sent)
  | leaveFails {s : Exchange α} {id : RequestId} (detail : String) (hat : s.asker id = .idle) :
      Step slots wait s (.leaveFails id detail) (s.move id (.returned (.error (.notSent detail))))
  | start {s : Exchange α} {id : RequestId} (hat : s.asker id = .sent) :
      Step slots wait s (.start id) (s.move id (.looking s.now))
  | look {s : Exchange α} {id : RequestId} {started : Nat} (hat : s.asker id = .looking started) :
      Step slots wait s (.look id)
        (s.move id (if s.pendingNow slots id then .pending started else .gone))
  | lookFails {s : Exchange α} {id : RequestId} {started : Nat}
      (hat : s.asker id = .looking started) : Step slots wait s (.lookFails id) (s.move id .gone)
  | patience {s : Exchange α} {id : RequestId} {started : Nat}
      (hat : s.asker id = .pending started) :
      Step slots wait s (.patience id)
        (s.move id (if wait.taken ≤ s.now - started then .withdrawing else .looking started))
  | withdraw {s : Exchange α} {id : RequestId} {text : List Char} (hat : s.asker id = .withdrawing)
      (hthere : s.requests (slots.requestFile id.val) = some text) :
      Step slots wait s (.withdraw id) ({ s with
        requests := Function.update s.requests (slots.requestFile id.val) none
        removals := s.removals ++ [(text, Remover.asker id)] }.move id
          (.returned (.error (.notTaken (wait.taken / 10 ^ 9)))))
  | withdrawGone {s : Exchange α} {id : RequestId} (hat : s.asker id = .withdrawing)
      (hgone : s.requests (slots.requestFile id.val) = none) :
      Step slots wait s (.withdraw id) (s.move id .gone)
  | withdrawFails {s : Exchange α} {id : RequestId} (hat : s.asker id = .withdrawing) :
      Step slots wait s (.withdrawFails id)
        (s.move id (.returned (.error (.notTaken (wait.taken / 10 ^ 9)))))
  | settle {s : Exchange α} {id : RequestId} (hat : s.asker id = .gone) :
      Step slots wait s (.settle id) (s.move id (.waiting s.now))
  | readAnswer {s : Exchange α} {id : RequestId} {taken : Nat} {outcome : Except String α}
      (hat : s.asker id = .waiting taken) (hanswer : s.answerTo slots id = some outcome) :
      Step slots wait s (.readAnswer id) (s.move id
        (match slots with
          | .one .. => .ofOutcome outcome
          | .perRequest _ => .collecting outcome))
  | readNone {s : Exchange α} {id : RequestId} {taken : Nat}
      (hat : s.asker id = .waiting taken) (hanswer : s.answerTo slots id = none) :
      Step slots wait s (.readAnswer id) (s.move id (.missed taken))
  | readAnswerFails {s : Exchange α} {id : RequestId} {taken : Nat}
      (hat : s.asker id = .waiting taken) :
      Step slots wait s (.readAnswerFails id) (s.move id (.missed taken))
  | expire {s : Exchange α} {id : RequestId} {taken : Nat} (hat : s.asker id = .missed taken) :
      Step slots wait s (.expire id) (s.move id
        (if wait.finished ≤ s.now - taken then
          .returned (.error (.noAnswer (wait.finished / 10 ^ 9))) else .waiting taken))
  | collect {s : Exchange α} {id : RequestId} {outcome : Except String α}
      (hat : s.asker id = .collecting outcome) :
      Step slots wait s (.collect id) ({ s with
        results := Function.update s.results (slots.resultFile id.val) none }.move id
          (.ofOutcome outcome))
  | collectFails {s : Exchange α} {id : RequestId} {outcome : Except String α}
      (hat : s.asker id = .collecting outcome) :
      Step slots wait s (.collectFails id) (s.move id (.ofOutcome outcome))
  | find {s : Exchange α} {request result : List Char} (hslots : slots = .one request result)
      (hat : s.service = .idle) :
      Step slots wait s .find
        { s with service := if (s.requests request).isSome then .found else .idle }
  | readSlot {s : Exchange α} {request result : List Char} (hslots : slots = .one request result)
      (hat : s.service = .found) :
      Step slots wait s .readSlot
        { s with service := .read ((s.requests request).bind readRequest) }
  | readSlotFails {s : Exchange α} {request result : List Char}
      (hslots : slots = .one request result) (hat : s.service = .found) :
      Step slots wait s .readSlotFails { s with service := .read none }
  | removeSlot {s : Exchange α} {request result text : List Char} {id : Option RequestId}
      (hslots : slots = .one request result) (hat : s.service = .read id)
      (hthere : s.requests request = some text) :
      Step slots wait s .removeSlot { s.take request text id with service := .idle }
  | removeSlotGone {s : Exchange α} {request result : List Char} {id : Option RequestId}
      (hslots : slots = .one request result) (hat : s.service = .read id)
      (hgone : s.requests request = none) :
      Step slots wait s .removeSlot { s with service := .idle }
  | removeSlotFails {s : Exchange α} {request result : List Char} {id : Option RequestId}
      (hslots : slots = .one request result) (hat : s.service = .read id) :
      Step slots wait s .removeSlotFails { s with service := .idle }
  | list {s : Exchange α} {stem : List Char} (names : List (List Char))
      (hslots : slots = .perRequest stem) (hat : s.service = .idle) :
      Step slots wait s (.list names) { s with service := .sweeping names }
  | entryTakes {s : Exchange α} {stem name id text : List Char} {rest : List (List Char)}
      (hslots : slots = .perRequest stem) (hat : s.service = .sweeping (name :: rest))
      (hid : entryId stem name = some id) (hthere : s.requests name = some text) :
      Step slots wait s .entry { s.take name text (checkId id) with service := .sweeping rest }
  | entrySweeps {s : Exchange α} {stem name text : List Char} {rest : List (List Char)}
      {outcome : Except String α} {written : Nat}
      (hslots : slots = .perRequest stem) (hat : s.service = .sweeping (name :: rest))
      (hid : entryId stem name = none) (hresult : isResult stem name = true)
      (hthere : s.results name = some (text, outcome, written))
      (hold : uncollected ≤ s.now - written) :
      Step slots wait s .entry { s with
        results := Function.update s.results name none, service := .sweeping rest }
  | entrySkips {s : Exchange α} {stem name : List Char} {rest : List (List Char)}
      (hslots : slots = .perRequest stem) (hat : s.service = .sweeping (name :: rest))
      (hskips : match entryId stem name with
        | some _ => s.requests name = none
        | none => isResult stem name = false ∨ ∀ text outcome written,
            s.results name = some (text, outcome, written) → s.now - written < uncollected) :
      Step slots wait s .entry { s with service := .sweeping rest }
  | entryFails {s : Exchange α} {stem name : List Char} {rest : List (List Char)}
      (hslots : slots = .perRequest stem) (hat : s.service = .sweeping (name :: rest)) :
      Step slots wait s .entryFails { s with service := .sweeping rest }
  | entriesEnd {s : Exchange α} {stem : List Char} (hslots : slots = .perRequest stem)
      (hat : s.service = .sweeping []) :
      Step slots wait s .entry { s with service := .idle }
  | answer {s : Exchange α} {id : RequestId} (outcome : Except String α)
      (hat : s.service = .idle) (htaken : id ∈ s.taken) (hfirst : s.answered id = none) :
      Step slots wait s (.answer id outcome) { s with
        results := Function.update s.results (slots.resultFile id.val)
          (some (id.val, outcome, s.now))
        answered := Function.update s.answered id (some (outcome, (s.asker id).done)) }

end

end RunnerManager.Platform.ServiceRequest
