import RunnerManager.Agent.Ports
import RunnerManager.Agent.Slots
import RunnerManager.Lib.Program
import RunnerManager.Platform.RunnerRoot

/-!
# Scrubbing a persistent slot

`scrub_persistent_slot`, `scrub_slot_entries`, `verify_slot_scrubbed` and `accept_reusable_slot`
of `crates/agent/src/lifecycle.rs`, over the calls they make to the filesystem. The environment
lists a slot in any order, may refuse any call, and may take part of a directory down before it
refuses to remove it. Three walks re-derive what may remain; `scrub_and_reuse_agree` says that they
agree.
-/

namespace RunnerManager.Agent

open RunnerManager.Domain
open Contract (wp_mono wp_runs wp_seq)

/-! ## Names and entries -/

/-- A file name, as the bytes the system keeps. -/
abbrev FileName := List UInt8

def fileName (text : String) : FileName :=
  text.toList.flatMap fun c ↦ (String.singleton c).toUTF8.data.toList

/-- `u8::to_ascii_lowercase`. -/
def lowerByte (b : UInt8) : UInt8 :=
  if 65 ≤ b && b ≤ 90 then b + 32 else b

/-- What a name is found by: Windows folds ASCII case. -/
def nameOn (platform : PathPlatform) (name : FileName) : FileName :=
  match platform with
  | .windows => name.map lowerByte
  | .unix => name

def defaultWorkFolder : String := "_work"

def isWorkFolder (platform : PathPlatform) (name : FileName) : Bool :=
  match platform with
  | .windows => name.map lowerByte == (fileName defaultWorkFolder).map lowerByte
  | .unix => name == fileName defaultWorkFolder

/-- What `symlink_metadata` says of an entry. -/
structure Metadata where
  isDir : Bool
  isSymlink : Bool
  reparsePoint : Bool
deriving DecidableEq

def isLinkLike (platform : PathPlatform) (metadata : Metadata) : Bool :=
  metadata.isSymlink || (platform = .windows && metadata.reparsePoint)

def isRetainableWorkFolder (platform : PathPlatform) (name : FileName) (metadata : Metadata) :
    Bool :=
  isWorkFolder platform name && metadata.isDir && !isLinkLike platform metadata

/-! ## Calls -/

inductive ErrorKind where
  | notFound
  | permissionDenied
  | other (name : String)
deriving DecidableEq

def ErrorKind.debug : ErrorKind → String
  | notFound => "NotFound"
  | permissionDenied => "PermissionDenied"
  | other name => name

/-- The calls on a slot and its direct entries. -/
inductive SlotCall where
  | configuredRoot (policy : PolicyId)
  | verifyContainment (root : LocalAbsolutePath) (child : String)
  | slotMetadata
  | readDir
  | symlinkMetadata (name : FileName)
  | removeFile (name : FileName)
  | removeDir (name : FileName)
  | removeDirAll (name : FileName)
  | unlinkReparsePoints (name : FileName)

/-- What each call answers. A listing answers each entry, or why it could not be read. -/
abbrev SlotCall.Answer : SlotCall → Type
  | configuredRoot _ => Except Unit (Option LocalAbsolutePath)
  | verifyContainment .. => Except String Unit
  | slotMetadata => Except ErrorKind Metadata
  | readDir => Except ErrorKind (List (Except ErrorKind FileName))
  | symlinkMetadata _ => Except ErrorKind Metadata
  | removeFile _ | removeDir _ | removeDirAll _ => Except ErrorKind Unit
  | unlinkReparsePoints _ => Unit

inductive SlotRefusal where
  | notTheJournalledSlot
  | policyRootDisagrees
  | containment
  | slotNotADirectory
  | enumeration
  | workNotADirectory
  | deletion
  | residue
deriving DecidableEq

namespace SlotRefusal

/-- `SlotRefusal::class`. -/
def className : SlotRefusal → String
  | notTheJournalledSlot => "slot_path_is_not_the_journalled_slot"
  | policyRootDisagrees => "slot_root_disagrees_with_policy"
  | containment => "slot_escapes_its_root"
  | slotNotADirectory => "slot_is_not_a_directory"
  | enumeration => "slot_could_not_be_enumerated"
  | workNotADirectory => "retained_work_is_not_a_directory"
  | deletion => "slot_entry_could_not_be_removed"
  | residue => "slot_still_holds_runner_state"

def remediation : SlotRefusal → String
  | notTheJournalledSlot | policyRootDisagrees | containment =>
    "the attempt keeps its slot lease and nothing was removed; correct the "
      ++ "repository's persistent workspace path, or remove the slot directory by hand "
      ++ "once you have confirmed what is in it"
  | slotNotADirectory | workNotADirectory =>
    "the attempt keeps its slot lease and nothing was removed; a job replaced the "
      ++ "slot or its `_work` with a link, so inspect it before deleting anything and "
      ++ "treat the retained workspace as untrusted"
  | enumeration | deletion | residue =>
    "the attempt keeps its slot lease and will be cleaned again on the next pass; "
      ++ "release whatever is holding the files open, or remove the slot's contents by "
      ++ "hand leaving only `_work`"

end SlotRefusal

structure SlotQuarantine where
  refusal : SlotRefusal
  detail : String
deriving DecidableEq

abbrev SlotProgram := Program SlotCall SlotCall.Answer SlotQuarantine

def quarantine {α : Type} (refusal : SlotRefusal) (detail : String) : SlotProgram α :=
  .fail ⟨refusal, detail⟩

def readDir : SlotProgram (Except ErrorKind (List (Except ErrorKind FileName))) :=
  Program.perform SlotCall.readDir

/-- What an entry is, without following it. -/
def symlinkMetadata (name : FileName) : SlotProgram (Except ErrorKind Metadata) :=
  Program.perform (SlotCall.symlinkMetadata name)

/-- Unlink a file or a link to one. -/
def removeFile (name : FileName) : SlotProgram (Except ErrorKind Unit) :=
  Program.perform (SlotCall.removeFile name)

/-- Remove an empty directory or a link to one. -/
def removeDir (name : FileName) : SlotProgram (Except ErrorKind Unit) :=
  Program.perform (SlotCall.removeDir name)

/-- Remove a directory and everything below it. -/
def removeDirAll (name : FileName) : SlotProgram (Except ErrorKind Unit) :=
  Program.perform (SlotCall.removeDirAll name)

/-- Unlink every link below a directory, as far as that goes. -/
def unlinkReparsePoints (name : FileName) : SlotProgram Unit :=
  Program.perform (SlotCall.unlinkReparsePoints name)

/-! ## Scrubbing -/

section Scrub

variable (platform : PathPlatform) (slot : String)

/-- The entries could not be listed. -/
def unlisted {α : Type} (suffix : String) (kind : ErrorKind) : SlotProgram α :=
  quarantine .enumeration
    ("the entries of " ++ slot ++ " could not be listed" ++ suffix ++ ": " ++ kind.debug)

/-- `listed_entry_metadata`: an entry that is gone has none. -/
def listedEntryMetadata (suffix : String) (name : FileName) : SlotProgram (Option Metadata) := do
  match ← symlinkMetadata name with
  | .ok metadata => return some metadata
  | .error .notFound => return none
  | .error kind => unlisted slot suffix kind

/-- `remove_runtime_tree`: on Windows links are taken out of a tree that refused to go. -/
def removeRuntimeTree (name : FileName) : SlotProgram (Except ErrorKind Unit) := do
  match platform, ← removeDirAll name with
  | .windows, .error .permissionDenied => do
    unlinkReparsePoints name
    removeDirAll name
  | _, answer => return answer

/-- The removal of one entry by its kind, before its error is looked at. -/
def removeByKind (name : FileName) (metadata : Metadata) : SlotProgram (Except ErrorKind Unit) :=
  if isLinkLike platform metadata then do
    match ← removeFile name with
    | .ok () => return .ok ()
    | .error _ => removeDir name
  else if metadata.isDir then removeRuntimeTree platform name
  else removeFile name

/-- `remove_slot_entry`: an entry that is already gone is removed. -/
def removeSlotEntry (name : FileName) (metadata : Metadata) :
    SlotProgram (Except ErrorKind Unit) := do
  match ← removeByKind platform name metadata with
  | .error .notFound => return .ok ()
  | answer => return answer

/-- A substituted `_work`. -/
def workSubstituted : SlotProgram Unit :=
  quarantine .workNotADirectory ("the retained `" ++ defaultWorkFolder ++ "` in " ++ slot
    ++ " is a link or a file rather than a real directory")

/-- One entry of the removing walk. -/
def scrubEntry (name : FileName) (metadata : Metadata) : SlotProgram Unit :=
  if isWorkFolder platform name then
    if isRetainableWorkFolder platform name metadata then return ()
    else workSubstituted slot
  else do
    match ← removeSlotEntry platform name metadata with
    | .ok () => return ()
    | .error kind =>
      quarantine .deletion
        ("an entry of " ++ slot ++ " could not be removed: " ++ kind.debug)

/-- The loop of `scrub_slot_entries`. -/
def scrubEntries : List (Except ErrorKind FileName) → SlotProgram Unit
  | [] => return ()
  | .error kind :: _ => unlisted slot "" kind
  | .ok name :: rest => do
    match ← listedEntryMetadata slot "" name with
    | none => scrubEntries rest
    | some metadata => do
      scrubEntry platform slot name metadata
      scrubEntries rest

def scrubSlotEntries : SlotProgram Unit := do
  match ← readDir with
  | .error kind => unlisted slot "" kind
  | .ok entries => scrubEntries platform slot entries

/-! ## Verifying -/

/-- `RestrictiveHandoff::NAME_PREFIX`. -/
def handoffPrefix : String := "jit-"

def sensitiveSlotEntries : List String :=
  ["bin", "externals", "run.sh", "run.cmd", "config.sh", "config.cmd", ".runner", ".credentials",
    ".credentials_rsaparams", ".env", ".path", "_diag", ".runner-process.json",
    ".runner-process.recovery.json", ".runner-process.unresolved", ".github-runner-id",
    ".terminate-registration-timeout"]

/-- The text with which a verification that could not list refuses. -/
def verifySuffix : String := " to verify the scrub"

/-- A handoff is reported by its published prefix. -/
def nameHandoff (name : FileName) (named : List String) : List String :=
  if (fileName handoffPrefix).isPrefixOf name then named ++ ["an encoded JIT handoff"] else named

/-- The counting walk: how many entries survived, and the handoffs among them. -/
def countResidue : List (Except ErrorKind FileName) → (residue : Nat) → (named : List String) →
    SlotProgram (Nat × List String)
  | [], residue, named => return (residue, named)
  | .error kind :: _, _, _ => unlisted slot verifySuffix kind
  | .ok name :: rest, residue, named => do
    match ← listedEntryMetadata slot verifySuffix name with
    | none => countResidue rest residue named
    | some metadata =>
      if isRetainableWorkFolder platform name metadata then countResidue rest residue named
      else countResidue rest (residue + 1) (nameHandoff name named)

/-- The named walk: the sensitive names that are still there. -/
def statSensitive : List String → (named : List String) → SlotProgram (List String)
  | [], named => return named
  | entry :: rest, named => do
    match ← symlinkMetadata (fileName entry) with
    | .ok _ => statSensitive rest (named ++ ["`" ++ entry ++ "`"])
    | .error _ => statSensitive rest named

def residueDetail (residue : Nat) (named : List String) : String :=
  if residue = 0 then
    "the listing of " ++ slot ++ " reported nothing but `" ++ defaultWorkFolder ++ "`, yet "
      ++ ", ".intercalate named ++ " survived cleanup"
  else
    toString residue ++ " entr" ++ (if residue = 1 then "y" else "ies") ++ " other than `"
      ++ defaultWorkFolder ++ "` survived cleanup of " ++ slot
      ++ (if named.isEmpty then "" else ", including " ++ ", ".intercalate named)

def verifySlotScrubbed : SlotProgram Unit := do
  match ← readDir with
  | .error kind => unlisted slot verifySuffix kind
  | .ok entries => do
    let (residue, named) ← countResidue platform slot entries 0 []
    let named ← statSensitive sensitiveSlotEntries named
    if residue = 0 && named.isEmpty then return ()
    else quarantine .residue (residueDetail slot residue ((named.mergeSort (· ≤ ·)).dedup))

def scrubAndVerify : SlotProgram Unit := do
  scrubSlotEntries platform slot
  verifySlotScrubbed platform slot

/-! ## The whole scrub -/

/-- `Path::parent`. -/
def parentOf (path : String) : Option String :=
  let (root, components) := Platform.splitPath platform path
  if components = [] then none else some (Platform.joinPath platform root components.dropLast)

/-- The journalled path is not the journalled slot. -/
def mislaid (number : NonZeroU16) : SlotProgram Unit :=
  quarantine .notTheJournalledSlot ("the journalled runtime " ++ slot ++ " is not the slot s"
    ++ toString number.val ++ " this attempt was allocated as")

/-- The canonical half of containment. -/
def checkContainment (root : LocalAbsolutePath) (child : String) : SlotProgram Unit := do
  match (← Program.perform (SlotCall.verifyContainment root child) : Except String Unit) with
  | .ok () => return ()
  | .error source =>
    quarantine .containment
      ("the journalled slot is not inside the root it was allocated from: " ++ source)

def verifyJournalledSlot (number : NonZeroU16) (configured : Option LocalAbsolutePath) :
    SlotProgram Unit :=
  match LocalAbsolutePath.parseFor slot platform,
      (parentOf platform slot).map (LocalAbsolutePath.parseFor · platform) with
  | .ok runtime, some (.ok root) =>
    match joinChild root ("s" ++ toString number.val) with
    | .error _ => mislaid slot number
    | .ok derived =>
      if derived ≠ runtime.text then mislaid slot number
      else
        match configured with
        | none => checkContainment root derived
        | some policyRoot =>
          if policyRoot ≠ root then
            quarantine .policyRootDisagrees ("the journalled slot " ++ slot
              ++ " is not under the repository's configured persistent root "
              ++ policyRoot.text)
          else checkContainment root derived
  | _, _ => mislaid slot number

def slotIsPresent : SlotProgram Bool := do
  match (← Program.perform SlotCall.slotMetadata : Except ErrorKind Metadata) with
  | .error .notFound => return false
  | .error kind =>
    quarantine .slotNotADirectory
      ("the slot " ++ slot ++ " could not be inspected: " ++ kind.debug)
  | .ok metadata =>
    if !metadata.isDir || isLinkLike platform metadata then
      quarantine .slotNotADirectory
        ("the slot " ++ slot ++ " is a link or a file rather than a real directory")
    else return true

/-- The seven checks of a scrub, in order. -/
def scrubJournalledSlot (number : NonZeroU16) (configured : Option LocalAbsolutePath) :
    SlotProgram Unit := do
  verifyJournalledSlot platform slot number configured
  if ← slotIsPresent platform slot then scrubAndVerify platform slot else return ()

end Scrub

def scrubPersistentSlot (platform : PathPlatform) (attempt : RunnerAttempt)
    (number : NonZeroU16) : Program SlotCall SlotCall.Answer LifecycleError Unit := do
  match (← Program.perform (SlotCall.configuredRoot attempt.policyId) :
      Except Unit (Option LocalAbsolutePath)) with
  | .error () => .fail .journal
  | .ok configured => do
    match ← (scrubJournalledSlot platform attempt.runtimePath number configured).outcome with
    | .ok () => return ()
    | .error refused =>
      .fail (.slotQuarantined refused.refusal.className
        (refused.detail ++ "; " ++ refused.refusal.remediation))

/-! ## Reusing -/

/-- Why a slot is not reused; the message names the entries it holds, sorted. -/
inductive ReuseRefusal where
  | unreadable (kind : ErrorKind)
  | uninspected (name : FileName) (kind : ErrorKind)
  | holds (entries : List FileName)
deriving DecidableEq

abbrev ReuseProgram := Program SlotCall SlotCall.Answer ReuseRefusal

/-- The loop of `accept_reusable_slot`: the entries that may not be reused. -/
def collectRefused (platform : PathPlatform) : List (Except ErrorKind FileName) →
    (refused : List FileName) → ReuseProgram (List FileName)
  | [], refused => return refused
  | .error kind :: _, _ => .fail (.unreadable kind)
  | .ok name :: rest, refused => do
    match (← Program.perform (SlotCall.symlinkMetadata name) : Except ErrorKind Metadata) with
    | .error kind => .fail (.uninspected name kind)
    | .ok metadata =>
      if isRetainableWorkFolder platform name metadata then collectRefused platform rest refused
      else collectRefused platform rest (refused ++ [name])

def acceptReusableSlot (platform : PathPlatform) : ReuseProgram Unit := do
  match (← Program.perform SlotCall.readDir :
      Except ErrorKind (List (Except ErrorKind FileName))) with
  | .error kind => .fail (.unreadable kind)
  | .ok entries => do
    let refused ← collectRefused platform entries []
    if refused.isEmpty then return () else .fail (.holds refused)

/-! ## Directories -/

/-- A direct entry of a slot, and what lies below it. -/
structure Entry (γ : Type) where
  name : FileName
  metadata : Metadata
  contents : γ

/-- A slot directory: no two entries have one name to the filesystem. -/
structure SlotDir (platform : PathPlatform) (γ : Type) where
  entries : List (Entry γ)
  distinct : (entries.map fun entry ↦ nameOn platform entry.name).Nodup

section Directory

variable {platform : PathPlatform} {γ : Type}

namespace SlotDir

def Named (platform : PathPlatform) (name : FileName) (entry : Entry γ) : Prop :=
  nameOn platform entry.name = nameOn platform name

instance (name : FileName) (entry : Entry γ) : Decidable (Named platform name entry) :=
  inferInstanceAs (Decidable (_ = _))

/-- A listing names entries of the directory, each once and in any order; one without an error
names them all. -/
def Lists (dir : SlotDir platform γ) (items : List (Except ErrorKind FileName)) : Prop :=
  (items.filterMap Except.toOption).Subperm (dir.entries.map (·.name)) ∧
    ((∀ item ∈ items, item.isOk = true) →
      (items.filterMap Except.toOption).Perm (dir.entries.map (·.name)))

/-- What an inspection may answer. -/
def Shows (dir : SlotDir platform γ) (name : FileName) : Except ErrorKind Metadata → Prop
  | .ok metadata => ∃ entry ∈ dir.entries, Named platform name entry ∧ entry.metadata = metadata
  | .error .notFound => ∀ entry ∈ dir.entries, ¬ Named platform name entry
  | .error _ => True

/-- The entry is gone and the others are as they were. -/
def Removed (dir : SlotDir platform γ) (name : FileName) (next : SlotDir platform γ) : Prop :=
  next.entries = dir.entries.filter fun entry ↦ ¬ Named platform name entry

/-- The entry is still there, whatever became of what lies below it. -/
def Damaged (dir : SlotDir platform γ) (name : FileName) (next : SlotDir platform γ) : Prop :=
  ∃ damage : γ → γ, next.entries = dir.entries.map fun entry ↦
    if Named platform name entry then { entry with contents := damage entry.contents } else entry

def Removes (dir : SlotDir platform γ) (name : FileName) (answer : Except ErrorKind Unit)
    (next : SlotDir platform γ) : Prop :=
  match answer with
  | .ok () => dir.Removed name next
  | .error _ => dir.Damaged name next

end SlotDir

/-- A removal never names the retained workspace. -/
def SlotCall.Requires (platform : PathPlatform) : SlotCall → Prop
  | removeFile name | removeDir name | removeDirAll name | unlinkReparsePoints name =>
    isWorkFolder platform name = false
  | _ => True

/-- How the filesystem answers. -/
def SlotDir.Steps (dir : SlotDir platform γ) :
    (c : SlotCall) → c.Answer → SlotDir platform γ → Prop
  | .configuredRoot _, _, next | .verifyContainment .., _, next | .slotMetadata, _, next =>
    next = dir
  | .readDir, answer, next => next = dir ∧ ∀ items, answer = .ok items → dir.Lists items
  | .symlinkMetadata name, answer, next => next = dir ∧ dir.Shows name answer
  | .removeFile name, answer, next | .removeDir name, answer, next
  | .removeDirAll name, answer, next => dir.Removes name answer next
  | .unlinkReparsePoints name, _, next => dir.Damaged name next

/-- The slot and the walks over it. -/
def slotContract (platform : PathPlatform) (γ : Type) :
    Contract SlotCall SlotCall.Answer (SlotDir platform γ) where
  requires _ c := c.Requires platform
  steps dir c answer next := dir.Steps c answer next

/-! ## What every call keeps -/

theorem isWorkFolder_iff {name : FileName} : isWorkFolder platform name = true ↔
    nameOn platform name = nameOn platform (fileName defaultWorkFolder) := by
  cases platform <;> simp [isWorkFolder, nameOn]

/-- The retained workspace, and anything under its name, is as it was. -/
def WorkKept (dir next : SlotDir platform γ) : Prop :=
  next.entries.filter (fun entry ↦ isWorkFolder platform entry.name) =
    dir.entries.filter fun entry ↦ isWorkFolder platform entry.name

theorem not_named_of_work {name : FileName} (hname : isWorkFolder platform name = false)
    {entry : Entry γ} (hentry : isWorkFolder platform entry.name = true) :
    ¬ SlotDir.Named platform name entry := by
  intro hnamed
  have hwork : isWorkFolder platform name = true :=
    isWorkFolder_iff.mpr (hnamed.symm.trans (isWorkFolder_iff.mp hentry))
  rw [hname] at hwork
  cases hwork

theorem workKept_of_removed {dir next : SlotDir platform γ} {name : FileName}
    (hname : isWorkFolder platform name = false) (h : dir.Removed name next) :
    WorkKept dir next := by
  unfold WorkKept
  rw [h, List.filter_filter]
  refine List.filter_congr fun entry _ ↦ ?_
  cases hwork : isWorkFolder platform entry.name with
  | false => rfl
  | true => simpa using not_named_of_work hname hwork

theorem workKept_of_damaged {dir next : SlotDir platform γ} {name : FileName}
    (hname : isWorkFolder platform name = false) (h : dir.Damaged name next) :
    WorkKept dir next := by
  obtain ⟨damage, hnext⟩ := h
  unfold WorkKept
  rw [hnext]
  generalize dir.entries = entries
  induction entries with
  | nil => rfl
  | cons entry entries ih =>
    rw [List.map_cons, List.filter_cons, List.filter_cons, ih]
    cases hwork : isWorkFolder platform entry.name with
    | true => simp [not_named_of_work hname hwork, hwork]
    | false =>
      by_cases hnamed : SlotDir.Named platform name entry <;> simp [hnamed, hwork]

theorem workKept_of_steps {start dir next : SlotDir platform γ} {c : SlotCall} {answer : c.Answer}
    (hkept : WorkKept start dir) (hrequires : c.Requires platform)
    (hstep : dir.Steps c answer next) : WorkKept start next := by
  have htrans : WorkKept dir next → WorkKept start next := fun h ↦ Eq.trans h hkept
  cases c with
  | configuredRoot | verifyContainment | slotMetadata =>
    obtain rfl : next = dir := hstep
    exact hkept
  | readDir | symlinkMetadata =>
    obtain rfl : next = dir := hstep.1
    exact hkept
  | removeFile name | removeDir name | removeDirAll name =>
    cases answer with
    | ok _ => exact htrans (workKept_of_removed hrequires hstep)
    | error _ => exact htrans (workKept_of_damaged hrequires hstep)
  | unlinkReparsePoints name => exact htrans (workKept_of_damaged hrequires hstep)

end Directory

/-! ## No walk removes the workspace -/

section Allowed

variable {platform : PathPlatform} {slot : String} {σ : Type}
  {C : Contract SlotCall SlotCall.Answer σ}

/-- A contract that asks no more than that the workspace is not removed. -/
def Lenient (platform : PathPlatform) (C : Contract SlotCall SlotCall.Answer σ) : Prop :=
  ∀ s c, c.Requires platform → C.requires s c

/-- A part did not refuse over a substituted `_work`. -/
def NotSubstituted {α : Type} (result : Except SlotQuarantine α) : Prop :=
  ∀ refused, result = .error refused → refused.refusal ≠ .workNotADirectory

theorem notSubstituted_ok {α : Type} (value : α) :
    NotSubstituted (.ok value : Except SlotQuarantine α) :=
  fun _ h ↦ by cases h

theorem NotSubstituted.forward {α β : Type} {refused : SlotQuarantine}
    (h : NotSubstituted (.error refused : Except SlotQuarantine α)) :
    NotSubstituted (.error refused : Except SlotQuarantine β) :=
  fun _ herror ↦ by cases herror; exact h refused rfl

theorem unlisted_notSubstituted {α : Type} (suffix : String) (kind : ErrorKind) (s : σ) :
    C.wp (unlisted slot suffix kind : SlotProgram α) (fun result _ ↦ NotSubstituted result) s := by
  intro refused h
  cases h
  exact SlotRefusal.noConfusion

theorem listedEntryMetadata_allowed (hC : Lenient platform C) (suffix : String) (name : FileName)
    (s : σ) : C.wp (listedEntryMetadata slot suffix name)
      (fun result _ ↦ NotSubstituted result) s := by
  refine ⟨hC _ _ trivial, fun answer t _ ↦ ?_⟩
  cases answer with
  | ok metadata => exact notSubstituted_ok _
  | error kind =>
    cases kind with
    | notFound => exact notSubstituted_ok _
    | permissionDenied | other => exact unlisted_notSubstituted suffix _ t

theorem removeRuntimeTree_allowed (hC : Lenient platform C) {name : FileName}
    (hname : isWorkFolder platform name = false) (s : σ) :
    C.wp (removeRuntimeTree platform name) (fun result _ ↦ NotSubstituted result) s := by
  unfold removeRuntimeTree
  refine ⟨hC _ _ hname, fun answer _ _ ↦ ?_⟩
  cases platform with
  | unix => exact notSubstituted_ok _
  | windows =>
    cases answer with
    | ok _ => exact notSubstituted_ok _
    | error kind =>
      cases kind with
      | permissionDenied =>
        exact ⟨hC _ _ hname, fun _ _ _ ↦ ⟨hC _ _ hname, fun _ _ _ ↦ notSubstituted_ok _⟩⟩
      | notFound | other => exact notSubstituted_ok _

theorem removeByKind_allowed (hC : Lenient platform C) {name : FileName}
    (hname : isWorkFolder platform name = false) (metadata : Metadata) (s : σ) :
    C.wp (removeByKind platform name metadata) (fun result _ ↦ NotSubstituted result) s := by
  unfold removeByKind
  split_ifs
  · refine ⟨hC _ _ hname, fun answer _ _ ↦ ?_⟩
    cases answer with
    | ok _ => exact notSubstituted_ok _
    | error _ => exact ⟨hC _ _ hname, fun _ _ _ ↦ notSubstituted_ok _⟩
  · exact removeRuntimeTree_allowed hC hname s
  · exact ⟨hC _ _ hname, fun _ _ _ ↦ notSubstituted_ok _⟩

theorem scrubEntry_allowed (hC : Lenient platform C) (name : FileName) (metadata : Metadata)
    (s : σ) : C.wp (scrubEntry platform slot name metadata)
      (fun result _ ↦ isWorkFolder platform name = false → NotSubstituted result) s := by
  unfold scrubEntry
  split_ifs with hwork hretained
  · exact fun _ ↦ notSubstituted_ok _
  · intro hname
    rw [hwork] at hname
    cases hname
  · have hname : isWorkFolder platform name = false := by simpa using hwork
    unfold removeSlotEntry
    refine wp_seq (R := fun result _ ↦ NotSubstituted result) ?_ (fun answer _ _ ↦ ?_)
      fun _ _ h _ ↦ h.forward
    · refine wp_seq (removeByKind_allowed hC hname metadata s) (fun answer _ _ ↦ ?_)
        fun _ _ h ↦ h
      cases answer with
      | ok _ => exact notSubstituted_ok _
      | error kind => cases kind <;> exact notSubstituted_ok _
    · cases answer with
      | ok _ => exact fun _ ↦ notSubstituted_ok _
      | error kind =>
        intro _ refused h
        cases h
        exact SlotRefusal.noConfusion

theorem scrubEntries_allowed (hC : Lenient platform C) (items : List (Except ErrorKind FileName))
    (s : σ) : C.wp (scrubEntries platform slot items) (fun result _ ↦
      (∀ name, .ok name ∈ items → isWorkFolder platform name = false) → NotSubstituted result)
      s := by
  induction items generalizing s with
  | nil => exact fun _ ↦ notSubstituted_ok _
  | cons item rest ih =>
    have hrest : ∀ t, C.wp (scrubEntries platform slot rest) (fun result _ ↦
        (∀ name, .ok name ∈ item :: rest → isWorkFolder platform name = false) →
          NotSubstituted result) t :=
      fun t ↦ wp_mono (ih t) fun _ _ h hnames ↦
        h fun name hname ↦ hnames name (List.mem_cons_of_mem _ hname)
    cases item with
    | error kind =>
      exact wp_mono (unlisted_notSubstituted "" kind s) fun _ _ h _ ↦ h
    | ok name =>
      unfold scrubEntries
      refine wp_seq (listedEntryMetadata_allowed hC "" name s) (fun found t _ ↦ ?_)
        fun _ _ h _ ↦ h.forward
      cases found with
      | none => exact hrest t
      | some metadata =>
        refine wp_seq (scrubEntry_allowed hC name metadata t)
          (fun _ u _ ↦ hrest u) ?_
        exact fun _ _ h hnames ↦ (h (hnames name List.mem_cons_self)).forward

theorem countResidue_allowed (hC : Lenient platform C) (items : List (Except ErrorKind FileName))
    (residue : Nat) (named : List String) (s : σ) :
    C.wp (countResidue platform slot items residue named)
      (fun result _ ↦ NotSubstituted result) s := by
  induction items generalizing residue named s with
  | nil => exact notSubstituted_ok _
  | cons item rest ih =>
    cases item with
    | error kind => exact unlisted_notSubstituted _ kind s
    | ok name =>
      unfold countResidue
      refine wp_seq (listedEntryMetadata_allowed hC _ name s) (fun found t _ ↦ ?_)
        fun _ _ h ↦ h.forward
      cases found with
      | none => exact ih _ _ t
      | some metadata =>
        show C.wp (if _ then _ else _) _ _
        split_ifs
        · exact ih _ _ t
        · exact ih _ _ t

theorem statSensitive_allowed (hC : Lenient platform C) (entries named : List String) (s : σ) :
    C.wp (statSensitive entries named) (fun result _ ↦ NotSubstituted result) s := by
  induction entries generalizing named s with
  | nil => exact notSubstituted_ok _
  | cons entry rest ih =>
    refine ⟨hC _ _ trivial, fun answer t _ ↦ ?_⟩
    cases answer with
    | ok _ => exact ih _ t
    | error _ => exact ih _ t

theorem verifySlotScrubbed_allowed (hC : Lenient platform C) (s : σ) :
    C.wp (verifySlotScrubbed platform slot) (fun result _ ↦ NotSubstituted result) s := by
  unfold verifySlotScrubbed
  refine wp_seq (R := fun result _ ↦ NotSubstituted result)
    ⟨hC _ _ trivial, fun _ _ _ ↦ notSubstituted_ok _⟩ (fun answer t _ ↦ ?_) fun _ _ h ↦ h.forward
  cases answer with
  | error kind => exact unlisted_notSubstituted _ kind t
  | ok items =>
    refine wp_seq (countResidue_allowed hC items 0 [] t) (fun counted u _ ↦ ?_)
      fun _ _ h ↦ h.forward
    refine wp_seq (statSensitive_allowed hC _ _ u) (fun named v _ ↦ ?_)
      fun _ _ h ↦ h.forward
    show C.wp (if _ then _ else _) _ _
    split_ifs
    · exact notSubstituted_ok _
    · intro refused h
      cases h
      exact SlotRefusal.noConfusion

theorem scrubSlotEntries_allowed (hC : Lenient platform C) (s : σ) :
    C.wp (scrubSlotEntries platform slot) (fun _ _ ↦ True) s := by
  unfold scrubSlotEntries
  refine wp_seq (R := fun _ _ ↦ True) ⟨hC _ _ trivial, fun _ _ _ ↦ trivial⟩
    (fun answer t _ ↦ ?_) fun _ _ _ ↦ trivial
  cases answer with
  | error kind => trivial
  | ok items => exact wp_mono (scrubEntries_allowed hC items t) fun _ _ _ ↦ trivial

theorem scrubAndVerify_allowed (hC : Lenient platform C) (s : σ) :
    C.wp (scrubAndVerify platform slot) (fun _ _ ↦ True) s :=
  wp_seq (scrubSlotEntries_allowed hC s)
    (fun _ t _ ↦ wp_mono (verifySlotScrubbed_allowed hC t) fun _ _ _ ↦ trivial)
    fun _ _ _ ↦ trivial

end Allowed

section Directory

variable {platform : PathPlatform} {γ : Type}

/-! ## What a verified slot holds -/

/-- A slot that may be handed on: empty, or one real workspace and nothing else. -/
def Scrubbed (dir : SlotDir platform γ) : Prop :=
  dir.entries = [] ∨ ∃ entry, dir.entries = [entry] ∧
    isRetainableWorkFolder platform entry.name entry.metadata = true

theorem SlotDir.eq_of_named (dir : SlotDir platform γ) {name : FileName} {a b : Entry γ}
    (ha : a ∈ dir.entries) (hb : b ∈ dir.entries) (hna : Named platform name a)
    (hnb : Named platform name b) : a = b :=
  List.inj_on_of_nodup_map dir.distinct ha hb (hna.trans hnb.symm)

theorem scrubbed_of_retainable {dir : SlotDir platform γ}
    (h : ∀ entry ∈ dir.entries,
      isRetainableWorkFolder platform entry.name entry.metadata = true) : Scrubbed dir := by
  cases hentries : dir.entries with
  | nil => exact .inl hentries
  | cons first rest =>
    have hfirst : first ∈ dir.entries := by simp [hentries]
    refine .inr ⟨first, ?_, h first hfirst⟩
    cases rest with
    | nil => exact hentries
    | cons second rest =>
      -- Two workspaces would have one name.
      have hsecond : second ∈ dir.entries := by simp [hentries]
      have hname : ∀ entry ∈ dir.entries,
          nameOn platform entry.name = nameOn platform (fileName defaultWorkFolder) := by
        intro entry hentry
        have hretained := h entry hentry
        simp only [isRetainableWorkFolder, Bool.and_eq_true] at hretained
        exact isWorkFolder_iff.mp hretained.1.1
      have hdistinct := dir.distinct
      rw [hentries] at hdistinct
      simp [hname first hfirst, hname second hsecond] at hdistinct

theorem retainable_of_scrubbed {dir : SlotDir platform γ} (h : Scrubbed dir) {entry : Entry γ}
    (hentry : entry ∈ dir.entries) :
    isRetainableWorkFolder platform entry.name entry.metadata = true := by
  obtain hempty | ⟨only, honly, hretained⟩ := h
  · rw [hempty] at hentry
    cases hentry
  · rw [honly, List.mem_singleton] at hentry
    rw [hentry]
    exact hretained

theorem metadata_of_shows {dir : SlotDir platform γ} {metadata : Metadata} {entry : Entry γ}
    (hentry : entry ∈ dir.entries) (h : dir.Shows entry.name (.ok metadata)) :
    entry.metadata = metadata := by
  obtain ⟨other, hother, hnamed, hmetadata⟩ := h
  rw [dir.eq_of_named hentry hother rfl hnamed]
  exact hmetadata

variable {slot : String}

theorem countResidue_wp (dir : SlotDir platform γ) (items : List (Except ErrorKind FileName))
    (residue : Nat) (named : List String) :
    (slotContract platform γ).wp (countResidue platform slot items residue named)
      (fun result next ↦ next = dir ∧ ∀ count names, result = .ok (count, names) →
        residue ≤ count ∧ (∀ item ∈ items, item.isOk = true) ∧
        (count = residue → ∀ entry ∈ dir.entries, .ok entry.name ∈ items →
          isRetainableWorkFolder platform entry.name entry.metadata = true)) dir := by
  induction items generalizing residue named with
  | nil =>
    refine ⟨rfl, fun count names h ↦ ?_⟩
    cases h
    exact ⟨Nat.le_refl _, fun _ h ↦ (nomatch h), fun _ _ _ h ↦ (nomatch h)⟩
  | cons item rest ih =>
    cases item with
    | error kind => exact ⟨rfl, fun _ _ h ↦ (nomatch h)⟩
    | ok name =>
      unfold countResidue
      refine ⟨trivial, fun answer next hstep ↦ ?_⟩
      obtain ⟨rfl, hshows⟩ : next = dir ∧ dir.Shows name answer := hstep
      -- The rest of the walk, when this entry is accounted for.
      have hrest : ∀ residue' named', residue ≤ residue' →
          (residue' = residue → ∀ entry ∈ next.entries, entry.name = name →
            isRetainableWorkFolder platform entry.name entry.metadata = true) →
          (slotContract platform γ).wp (countResidue platform slot rest residue' named')
            (fun result last ↦ last = next ∧ ∀ count names, result = .ok (count, names) →
              residue ≤ count ∧ (∀ item ∈ .ok name :: rest, item.isOk = true) ∧
              (count = residue → ∀ entry ∈ next.entries, .ok entry.name ∈ .ok name :: rest →
                isRetainableWorkFolder platform entry.name entry.metadata = true)) next := by
        intro residue' named' hle hname
        refine wp_mono (ih residue' named') fun result last h ↦
          ⟨h.1, fun count names hresult ↦ ?_⟩
        obtain ⟨hcount, hok, hretained⟩ := h.2 count names hresult
        refine ⟨Nat.le_trans hle hcount, ?_, ?_⟩
        · intro item hitem
          obtain rfl | hitem := List.mem_cons.mp hitem
          · rfl
          · exact hok item hitem
        · intro hsame entry hentry hlisted
          obtain heq | hlisted := List.mem_cons.mp hlisted
          · exact hname (by omega) entry hentry (Except.ok.inj heq)
          · exact hretained (by omega) entry hentry hlisted
      cases answer with
      | error kind =>
        cases kind with
        | notFound =>
          refine hrest residue named (Nat.le_refl _) fun _ entry hentry hname ↦ ?_
          exact absurd (congrArg (nameOn platform) hname) (hshows entry hentry)
        | permissionDenied | other => exact ⟨rfl, fun _ _ h ↦ (nomatch h)⟩
      | ok metadata =>
        show (slotContract platform γ).wp (if _ then _ else _) _ _
        split_ifs with hretained
        · refine hrest residue named (Nat.le_refl _) fun _ entry hentry hname ↦ ?_
          subst hname
          rw [metadata_of_shows hentry hshows]
          exact hretained
        · exact hrest (residue + 1) _ (Nat.le_succ _) fun h ↦ absurd h (Nat.succ_ne_self _)

theorem statSensitive_wp (dir : SlotDir platform γ) (entries named : List String) :
    (slotContract platform γ).wp (statSensitive entries named) (fun _ next ↦ next = dir) dir := by
  induction entries generalizing named with
  | nil => rfl
  | cons entry rest ih =>
    refine ⟨trivial, fun answer next hstep ↦ ?_⟩
    obtain ⟨rfl, -⟩ : next = dir ∧ _ := hstep
    cases answer with
    | ok _ => exact ih _
    | error _ => exact ih _

theorem verifySlotScrubbed_wp (dir : SlotDir platform γ) :
    (slotContract platform γ).wp (verifySlotScrubbed platform slot)
      (fun result next ↦ next = dir ∧ (result = .ok () → Scrubbed dir)) dir := by
  refine ⟨trivial, fun answer next hstep ↦ ?_⟩
  obtain ⟨rfl, hlists⟩ : next = dir ∧ ∀ items, answer = .ok items → dir.Lists items := hstep
  cases answer with
  | error kind => exact ⟨rfl, fun h ↦ (nomatch h)⟩
  | ok items =>
    show (slotContract platform γ).wp (countResidue platform slot items 0 [] >>= _) _ _
    refine wp_seq (countResidue_wp next items 0 []) (fun counted t hcounted ↦ ?_)
      fun _ _ h ↦ ⟨h.1, fun h ↦ (nomatch h)⟩
    obtain ⟨rfl, hcounted⟩ := hcounted
    obtain ⟨residue, names⟩ := counted
    obtain ⟨-, hok, hretained⟩ := hcounted residue names rfl
    refine wp_seq (statSensitive_wp t _ names) (fun named u hu ↦ ?_)
      fun _ _ h ↦ ⟨h, fun h ↦ (nomatch h)⟩
    subst hu
    show (slotContract platform γ).wp (if _ then _ else _) _ _
    split_ifs with hclean
    · refine ⟨rfl, fun _ ↦ scrubbed_of_retainable fun entry hentry ↦ ?_⟩
      rw [Bool.and_eq_true, decide_eq_true_eq] at hclean
      refine hretained hclean.1 entry hentry ?_
      have hlisted := ((hlists items rfl).2 hok).mem_iff.mpr
        (List.mem_map_of_mem (f := (·.name)) hentry)
      obtain ⟨item, hitem, hname⟩ := List.mem_filterMap.mp hlisted
      cases item with
      | error _ => cases hname
      | ok name =>
        cases hname
        exact hitem
    · exact ⟨rfl, fun h ↦ (nomatch h)⟩

/-! ## Reuse -/

def Readable : (c : SlotCall) → c.Answer → Prop
  | .readDir, answer => ∃ items, answer = .ok items ∧ ∀ item ∈ items, item.isOk = true
  | .symlinkMetadata _, answer => ∀ kind, answer = .error kind → kind = .notFound
  | _, _ => True

/-- A filesystem that answers every read. -/
def readableContract (platform : PathPlatform) (γ : Type) :
    Contract SlotCall SlotCall.Answer (SlotDir platform γ) :=
  (slotContract platform γ).assuming fun _ c answer ↦ Readable c answer

theorem collectRefused_wp {dir : SlotDir platform γ} (hscrubbed : Scrubbed dir)
    (items : List (Except ErrorKind FileName))
    (hitems : ∀ item ∈ items, ∃ entry ∈ dir.entries, item = .ok entry.name) :
    (readableContract platform γ).wp (collectRefused platform items [])
      (fun result next ↦ result = .ok [] ∧ next = dir) dir := by
  induction items with
  | nil => exact ⟨rfl, rfl⟩
  | cons item rest ih =>
    obtain ⟨entry, hentry, rfl⟩ := hitems item List.mem_cons_self
    have hrest := ih fun item hitem ↦ hitems item (List.mem_cons_of_mem _ hitem)
    unfold collectRefused
    refine ⟨trivial, fun answer next hstep ↦ ?_⟩
    obtain ⟨hreadable, rfl, hshows⟩ :
      Readable (.symlinkMetadata entry.name) answer ∧ next = dir ∧ dir.Shows entry.name answer :=
      hstep
    cases answer with
    | error kind =>
      obtain rfl := hreadable kind rfl
      exact absurd rfl (hshows entry hentry)
    | ok metadata =>
      have hretained := retainable_of_scrubbed hscrubbed hentry
      rw [metadata_of_shows hentry hshows] at hretained
      show (readableContract platform γ).wp (if _ then _ else _) _ _
      rw [if_pos hretained]
      exact hrest

theorem acceptReusableSlot_wp {dir : SlotDir platform γ} (hscrubbed : Scrubbed dir) :
    (readableContract platform γ).wp (acceptReusableSlot platform)
      (fun result next ↦ result = .ok () ∧ next = dir) dir := by
  refine ⟨trivial, fun answer next hstep ↦ ?_⟩
  obtain ⟨⟨items, rfl, hok⟩, rfl, hlists⟩ : Readable .readDir answer ∧ next = dir ∧
    ∀ items, answer = .ok items → dir.Lists items := hstep
  have hitems : ∀ item ∈ items, ∃ entry ∈ next.entries, item = .ok entry.name := by
    intro item hitem
    cases item with
    | error kind => cases hok _ hitem
    | ok name =>
      have hlisted : name ∈ items.filterMap Except.toOption :=
        List.mem_filterMap.mpr ⟨.ok name, hitem, rfl⟩
      obtain ⟨entry, hentry, rfl⟩ := List.mem_map.mp ((hlists items rfl).1.subset hlisted)
      exact ⟨entry, hentry, rfl⟩
  show (readableContract platform γ).wp (collectRefused platform items [] >>= _) _ _
  refine wp_seq (collectRefused_wp hscrubbed items hitems) (fun refused t h ↦ ?_)
    fun _ _ h ↦ (nomatch h.1)
  obtain ⟨hrefused, rfl⟩ := h
  cases hrefused
  exact ⟨rfl, rfl⟩

theorem slotContract_lenient (platform : PathPlatform) (γ : Type) :
    Lenient platform (slotContract platform γ) :=
  fun _ _ h ↦ h

/-- On every path of a scrub and its verification, refused, cut off or successful, the retained
workspace and what lies below it are as they were; a successful one leaves an empty slot or that
workspace alone, and the slot is then accepted for reuse. -/
theorem scrub_and_reuse_agree (platform : PathPlatform) (γ : Type) (slot : String)
    (dir : SlotDir platform γ) :
    (∀ rest next, (slotContract platform γ).Runs (scrubAndVerify platform slot) dir rest next →
      WorkKept dir next) ∧
    ∀ next, (slotContract platform γ).Runs (scrubAndVerify platform slot) dir (.done (.ok ()))
        next →
      Scrubbed next ∧ (∀ entry ∈ next.entries, entry ∈ dir.entries) ∧
      (readableContract platform γ).wp (acceptReusableSlot platform)
        (fun result last ↦ result = .ok () ∧ last = next) next := by
  have hkept : ∀ rest next, (slotContract platform γ).Runs (scrubAndVerify platform slot) dir rest
      next → WorkKept dir next := by
    intro rest next hrun
    refine Contract.invariant_of_runs (I := WorkKept dir) ?_
      (scrubAndVerify_allowed (slotContract_lenient platform γ) dir) rfl hrun
    exact fun _ _ _ _ hwork hrequires hstep ↦ workKept_of_steps hwork hrequires hstep
  refine ⟨hkept, fun next hrun ↦ ?_⟩
  have hverified : (slotContract platform γ).wp (scrubAndVerify platform slot)
      (fun result last ↦ result = .ok () → Scrubbed last) dir := by
    refine wp_seq (scrubSlotEntries_allowed (slotContract_lenient platform γ) dir)
      (fun _ t _ ↦ ?_) fun _ _ _ h ↦ (nomatch h)
    refine wp_mono (verifySlotScrubbed_wp t) fun result last h hresult ↦ ?_
    rw [h.1]
    exact h.2 hresult
  have hscrubbed : Scrubbed next := wp_runs hverified hrun rfl
  refine ⟨hscrubbed, fun entry hentry ↦ ?_, acceptReusableSlot_wp hscrubbed⟩
  have hretained := retainable_of_scrubbed hscrubbed hentry
  simp only [isRetainableWorkFolder, Bool.and_eq_true] at hretained
  have hmem : entry ∈ next.entries.filter fun entry ↦ isWorkFolder platform entry.name :=
    List.mem_filter.mpr ⟨hentry, hretained.1.1⟩
  rw [hkept _ next hrun] at hmem
  exact (List.mem_filter.mp hmem).1

end Directory

end RunnerManager.Agent
