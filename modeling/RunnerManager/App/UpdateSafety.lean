import RunnerManager.App.Update

/-!
# An update never leaves a broken binary

`Disk` is the directory of the binary and the temporary directory, and `Disk.Step` says how the
machine answers each call, a failure included. `update_safe` reads off what `install_over` keeps
(`wp_installOver`): at every moment the binary is the old or the verified new file, or the two
renames of Windows are between, and a call that fails leaves the old one.
-/

namespace RunnerManager.App.Update

open RunnerManager.Text RunnerManager.App.ReleaseSums

/-! ## Names -/

theorem fileStem_cases (name : Name) :
    name = fileStem name ∨
      ∃ extension, '.' ∉ extension ∧ name = fileStem name ++ '.' :: extension := by
  unfold fileStem
  split
  · next c before hback =>
    right
    have hname := List.takeWhile_append_dropWhile (p := (· ≠ '.')) (l := name.reverse)
    rw [hback] at hname
    refine ⟨(name.reverse.takeWhile (· ≠ '.')).reverse, ?_, ?_⟩
    · intro hmem
      simpa using List.mem_takeWhile_imp (List.mem_reverse.mp hmem)
    · have hreverse := congrArg List.reverse hname
      simpa using hreverse.symm
  · exact .inl rfl

variable {isUuid : Name → Bool} {stem name : Name}

theorem old_image_iff : isOldImage isUuid stem name = true ↔
    ∃ uuid, name = stem ++ ".old.".toList ++ uuid ∧ isUuid uuid = true := by
  simp only [isOldImage, Option.any_eq_true, List.dropPrefix?_eq_some_iff, beq_iff_eq]
  constructor
  · rintro ⟨uuid, ⟨front, hname, rfl⟩, huuid⟩
    exact ⟨uuid, hname, huuid⟩
  · rintro ⟨uuid, hname, huuid⟩
    exact ⟨uuid, ⟨_, hname, rfl⟩, huuid⟩

theorem not_old_image_self : isOldImage isUuid (fileStem name) name = false := by
  by_contra hold
  rw [Bool.not_eq_false, old_image_iff] at hold
  obtain ⟨uuid, hname, -⟩ := hold
  obtain hstem | ⟨extension, hdot, hextension⟩ := fileStem_cases name
  · have hlength := congrArg List.length (hname.symm.trans hstem)
    simp at hlength
  · have hsame := hextension.symm.trans hname
    rw [List.append_assoc, List.append_cancel_left_eq] at hsame
    obtain rfl : extension = "old.".toList ++ uuid := by simpa using hsame
    simp at hdot

theorem infix_of_old_image (h : isOldImage isUuid stem name = true) :
    ".old.".toList <:+: name := by
  rw [old_image_iff] at h
  obtain ⟨uuid, rfl, -⟩ := h
  exact ⟨stem, uuid, rfl⟩

theorem staged_not_old_image (windows : Bool) :
    isOldImage isUuid stem (stagedName windows) = false := by
  by_contra hold
  have hinfix := infix_of_old_image (Bool.of_not_eq_false hold)
  revert hinfix
  unfold stagedName
  rw [String.toList_ofList, String.toList_ofList, String.toList_ofList]
  cases windows <;> decide

theorem ne_staged {name : Name} (windows : Bool) (h : name.head? ≠ some '.') :
    name ≠ stagedName windows := by
  rintro rfl
  refine h ?_
  unfold stagedName
  rw [String.toList_ofList]
  rfl

theorem supervisor_not_old_image : isOldImage isUuid stem supervisorName = false := by
  by_contra hold
  have hinfix := infix_of_old_image (Bool.of_not_eq_false hold)
  revert hinfix
  unfold supervisorName
  rw [String.toList_ofList, String.toList_ofList]
  decide

theorem aside_old_image {uuid : Name} (h : isUuid uuid = true) :
    isOldImage isUuid (fileStem name) (withExtension name ("old.".toList ++ uuid)) = true := by
  rw [old_image_iff]
  exact ⟨uuid, by simp [withExtension], h⟩

/-! ## The machine -/

/-- What a name may stand for. -/
inductive Node (β : Type) where
  | file (content : β)
  | directory

/-- The directory of the binary, the archive and the files taken out of it. -/
structure Disk (β : Type) where
  files : Name → Option (Node β)
  archive : Option β
  unpacked : Name → Option β

namespace Disk

variable {β : Type} (machine : Machine) (sha256 : β → List Char) (entry : β → Name → Option β)

/-- How the machine answers a call. A file operation that fails changes nothing, except that a copy
or an extraction may have begun; a UUID is new. -/
def Step (s : Disk β) : (c : Call) → c.Answer → Disk β → Prop
  | .fetchFile _, _, t => ∃ archive, t = { s with archive := archive }
  | .sha256OfArchive, answer, t => t = s ∧ ∀ digest, answer = .ok digest →
      ∃ archive, s.archive = some archive ∧ digest = sha256 archive
  | .extract inside into, .ok _, t => ∃ archive content, s.archive = some archive ∧
      entry archive inside = some content ∧
      t = { s with unpacked := Function.update s.unpacked into (some content) }
  | .extract _ into, .error _, t => ∃ begun,
      t = { s with unpacked := Function.update s.unpacked into begun }
  | .isDir name, answer, t => t = s ∧ (answer = true → s.files name = some .directory)
  | .remove name, .ok _, t => (∃ content, s.files name = some (.file content)) ∧
      t = { s with files := Function.update s.files name none }
  | .copy unpacked target, .ok _, t => ∃ content, s.unpacked unpacked = some content ∧
      t = { s with files := Function.update s.files target (some (.file content)) }
  | .copy _ target, .error _, t => ∃ begun,
      t = { s with files := Function.update s.files target begun }
  | .newUuid, uuid, t => t = s ∧ machine.isUuid uuid = true ∧
      ∀ stem, s.files (stem ++ ".old.".toList ++ uuid) = none
  | .present name, answer, t => t = s ∧ (answer = true → s.files name ≠ none)
  | .rename source target, .ok _, t => ∃ node, s.files source = some node ∧
      t = { s with files :=
        Function.update (Function.update s.files source none) target (some node) }
  | _, _, t => t = s

/-- What the result rests on: the old image that was moved aside can be moved back, and the closing
line is written. -/
def Benign (destination : Name) (s : Disk β) : (c : Call) → c.Answer → Prop
  | .rename source target, .error _ => source = stagedName machine.windows ∨
      s.files source = none ∨ target ≠ destination ∧ target ≠ supervisorName
  | .sayInstalled .., .error _ => False
  | _, _ => True

/-- The machine, where a call requires what is to hold at every moment, and only some answers are
given. -/
def contract (requires : Disk β → Call → Prop)
    (allowed : Disk β → (c : Call) → c.Answer → Prop) : Contract Call Call.Answer (Disk β) where
  requires := requires
  steps s c a t := s.Step machine sha256 entry c a t ∧ allowed s c a

/-! ## Putting a file in place -/

/-- The files that putting one in place may change. -/
def Touches (destination name : Name) : Prop :=
  name = destination ∨ name = stagedName machine.windows ∨
    isOldImage machine.isUuid (fileStem destination) name = true

/-- Nothing else has changed. -/
structure Frame (destination : Name) (s t : Disk β) : Prop where
  archive : t.archive = s.archive
  unpacked : t.unpacked = s.unpacked
  files : ∀ name, ¬ Touches machine destination name → t.files name = s.files name

variable {machine}

theorem Frame.refl (destination : Name) (s : Disk β) : Frame machine destination s s :=
  ⟨rfl, rfl, fun _ _ ↦ rfl⟩

theorem Frame.trans {destination : Name} {s t u : Disk β} (h : Frame machine destination s t)
    (h' : Frame machine destination t u) : Frame machine destination s u :=
  ⟨h'.archive.trans h.archive, h'.unpacked.trans h.unpacked,
    fun name hname ↦ (h'.files name hname).trans (h.files name hname)⟩

theorem Frame.update {destination name : Name} {s : Disk β} {node : Option (Node β)}
    (h : Touches machine destination name) :
    Frame machine destination s { s with files := Function.update s.files name node } :=
  ⟨rfl, rfl, fun other hother ↦ Function.update_of_ne (fun heq : other = name ↦
    hother (heq ▸ h)) _ _⟩

/-- The destination at a moment: as it was, the new file, or between two renames. -/
def Placed (machine : Machine) (destination : Name) (content : β) (s t : Disk β) (c : Call) :
    Prop :=
  t.files destination = s.files destination ∨ t.files destination = some (.file content) ∨
    machine.windows = true ∧ t.files destination = none ∧ ∃ source, c = .rename source destination

section

variable {sha256 : β → List Char} {entry : β → Name → Option β}
  {requires : Disk β → Call → Prop} {allowed : Disk β → (c : Call) → c.Answer → Prop}
  {destination : Name} {content : β} {start s t : Disk β}

/-- The destination is as it was, and so is all else that putting a file in place may not touch. -/
structure Untouched (machine : Machine) (destination : Name) (start t : Disk β) : Prop where
  frame : Frame machine destination start t
  destination : t.files destination = start.files destination

theorem Untouched.refl (destination : Name) (s : Disk β) : Untouched machine destination s s :=
  ⟨.refl destination s, rfl⟩

theorem Untouched.update (h : Untouched machine destination start s) {name : Name}
    {node : Option (Node β)} (hname : Touches machine destination name)
    (hne : name ≠ destination) :
    Untouched machine destination start
      { s with files := Function.update s.files name node } :=
  ⟨h.frame.trans (.update hname), (Function.update_of_ne hne.symm _ _).trans h.destination⟩

theorem Untouched.remove (h : Untouched machine destination start s) {name : Name}
    (hname : Touches machine destination name) (hne : name ≠ destination)
    {answer : Except IoError Unit} (hstep : s.Step machine sha256 entry (.remove name) answer t) :
    Untouched machine destination start t := by
  cases answer with
  | ok _ =>
    obtain ⟨-, rfl⟩ := hstep
    exact h.update hname hne
  | error _ =>
    obtain rfl := hstep
    exact h

theorem touches_staged : Touches machine destination (stagedName machine.windows) :=
  .inr (.inl rfl)

theorem touches_old_image {name : Name}
    (h : isOldImage machine.isUuid (fileStem destination) name = true) :
    Touches machine destination name ∧ name ≠ destination ∧ name ≠ stagedName machine.windows := by
  refine ⟨.inr (.inr h), ?_, ?_⟩
  · rintro rfl
    rw [not_old_image_self] at h
    exact nomatch h
  · rintro rfl
    rw [staged_not_old_image] at h
    exact nomatch h

theorem removed_other {name other : Name} {answer : Except IoError Unit}
    (hstep : s.Step machine sha256 entry (.remove name) answer t) (hother : other ≠ name) :
    t.files other = s.files other := by
  cases answer with
  | ok _ =>
    obtain ⟨-, rfl⟩ := hstep
    exact Function.update_of_ne hother _ _
  | error _ =>
    obtain rfl := hstep
    rfl

theorem removed_none {name other : Name} {answer : Except IoError Unit}
    (hstep : s.Step machine sha256 entry (.remove name) answer t)
    (hother : s.files other = none) : t.files other = none := by
  by_cases hname : other = name
  · subst hname
    cases answer with
    | ok _ =>
      obtain ⟨⟨_, hthere⟩, rfl⟩ := hstep
      exact nomatch hother.symm.trans hthere
    | error _ =>
      obtain rfl := hstep
      exact hother
  · rw [removed_other hstep hname, hother]

theorem Frame.of_remove {name : Name} {answer : Except IoError Unit}
    (hstep : s.Step machine sha256 entry (.remove name) answer t)
    (hname : Touches machine destination name) : Frame machine destination s t := by
  cases answer with
  | ok _ =>
    obtain ⟨-, rfl⟩ := hstep
    exact .update hname
  | error _ =>
    obtain rfl := hstep
    exact .refl destination t

theorem Frame.of_rename {source target : Name} {answer : Except IoError Unit}
    (hstep : s.Step machine sha256 entry (.rename source target) answer t)
    (hsource : Touches machine destination source) (htarget : Touches machine destination target) :
    Frame machine destination s t := by
  cases answer with
  | ok _ =>
    obtain ⟨node, -, rfl⟩ := hstep
    refine ⟨rfl, rfl, fun name hname ↦ ?_⟩
    have hne : ∀ {other}, Touches machine destination other → name ≠ other :=
      fun hother heq ↦ hname (heq ▸ hother)
    simp [hne hsource, hne htarget]
  | error _ =>
    obtain rfl := hstep
    exact .refl destination t

-- what every call meets: the destination may be old, new, or away between two renames
variable (hrequires : ∀ t c, Frame machine destination start t →
  Placed machine destination content start t c → requires t c)
include hrequires

theorem wp_sweep (names : List Name) (h : Untouched machine destination start s) :
    (contract machine sha256 entry requires allowed).wp
      (sweep machine (fileStem destination) names)
      (fun result t ↦ result = .ok () ∧ Untouched machine destination start t ∧
        t.files (stagedName machine.windows) = s.files (stagedName machine.windows) ∧
        ∀ name, s.files name = none → t.files name = none) s := by
  induction names generalizing s with
  | nil => exact ⟨rfl, h, rfl, fun _ h ↦ h⟩
  | cons name names ih =>
    rw [sweep]
    split_ifs with hold
    · obtain ⟨htouches, hne, hstaged⟩ := touches_old_image hold
      refine ⟨hrequires _ _ h.frame (.inl h.destination), fun answer t hstep ↦ ?_⟩
      have ht := h.remove htouches hne hstep.1
      refine Contract.wp_mono (ih ht) fun result u ⟨hresult, hu, hsame, hgone⟩ ↦ ?_
      refine ⟨hresult, hu, ?_, fun other hother ↦ hgone other ?_⟩
      · rw [hsame]
        exact removed_other hstep.1 hstaged.symm
      · exact removed_none hstep.1 hother
    · exact ih h

theorem wp_moveAside {aside : Name} (h : Untouched machine destination start s)
    (hold : isOldImage machine.isUuid (fileStem destination) aside = true)
    (hnew : s.files aside = none) (hne : destination ≠ stagedName machine.windows) :
    (contract machine sha256 entry requires allowed).wp (moveAside machine destination aside)
      (fun result t ↦ match result with
        | .ok _ => Frame machine destination start t ∧
            t.files (stagedName machine.windows) = s.files (stagedName machine.windows) ∧
            (t.files destination = start.files destination ∧ t.files aside = none ∨
              t.files destination = none ∧ ∃ node, start.files destination = some node ∧
                t.files aside = some node)
        | .error _ => Untouched machine destination start t) s := by
  obtain ⟨htouches, haside, hstaged⟩ := touches_old_image hold
  refine ⟨hrequires _ _ h.frame (.inl h.destination), ?_⟩
  rintro seen t ⟨⟨rfl, -⟩, -⟩
  cases seen with
  | false => exact ⟨h.frame, rfl, .inl ⟨h.destination, hnew⟩⟩
  | true =>
    refine ⟨hrequires _ _ h.frame (.inl h.destination), fun answer t hstep ↦ ?_⟩
    cases answer with
    | ok _ =>
      obtain ⟨node, hnode, rfl⟩ := hstep.1
      refine ⟨h.frame.trans (.of_rename hstep.1 (.inl rfl) htouches), ?_,
        .inr ⟨?_, node, ?_, ?_⟩⟩
      · simp [hstaged.symm, hne.symm]
      · simp [haside.symm]
      · rw [← h.destination, hnode]
      · simp
    | error e =>
      obtain rfl := hstep.1
      refine ⟨hrequires _ _ h.frame (.inl h.destination), fun answer t hstep ↦ ?_⟩
      exact h.remove touches_staged hne.symm hstep.1

theorem wp_moveIn {aside : Name} (hframe : Frame machine destination start s)
    (hwindows : machine.windows = true)
    (hold : isOldImage machine.isUuid (fileStem destination) aside = true)
    (hstaged : s.files (stagedName machine.windows) = some (.file content))
    (haway : s.files destination = start.files destination ∧ s.files aside = none ∨
      s.files destination = none ∧ ∃ node, start.files destination = some node ∧
        s.files aside = some node)
    (hne : destination ≠ stagedName machine.windows)
    (hallowed : ∀ t source e, source ≠ stagedName machine.windows → t.files source ≠ none →
      ¬ allowed t (.rename source destination) (.error e)) :
    (contract machine sha256 entry requires allowed).wp (moveIn machine destination aside)
      (fun result t ↦ Frame machine destination start t ∧ match result with
        | .ok _ => t.files destination = some (.file content)
        | .error _ => t.files destination = start.files destination) s := by
  obtain ⟨htouches, haside, hasideStaged⟩ := touches_old_image hold
  have hplaced : ∀ source, Placed machine destination content start s
      (.rename source destination) := fun source ↦
    haway.elim (fun h ↦ .inl h.1) fun h ↦ .inr (.inr ⟨hwindows, h.1, source, rfl⟩)
  refine ⟨hrequires _ _ hframe (hplaced _), fun answer t hstep ↦ ?_⟩
  cases answer with
  | ok _ =>
    have hframe' := hframe.trans (.of_rename hstep.1 touches_staged (.inl rfl))
    obtain ⟨node, hnode, rfl⟩ := hstep.1
    obtain rfl := Option.some.inj (hstaged.symm.trans hnode)
    refine ⟨hrequires _ _ hframe' (.inr (.inl (by simp))), fun answer u hstep ↦ ?_⟩
    exact ⟨hframe'.trans (.of_remove hstep.1 htouches),
      (removed_other hstep.1 haside.symm).trans (by simp)⟩
  | error e =>
    obtain rfl := hstep.1
    refine ⟨hrequires _ _ hframe (hplaced _), fun answer u hstep ↦ ?_⟩
    have hback : Untouched machine destination start u := by
      refine ⟨hframe.trans (.of_rename hstep.1 htouches (.inl rfl)), ?_⟩
      cases answer with
      | ok _ =>
        obtain ⟨node, hnode, rfl⟩ := hstep.1
        obtain ⟨-, hgone⟩ | ⟨-, old, hstart, hthere⟩ := haway
        · exact nomatch hgone.symm.trans hnode
        · rw [hstart, ← hthere, hnode]
          simp
      | error e =>
        obtain rfl := hstep.1
        obtain ⟨hsame, -⟩ | ⟨-, old, -, hthere⟩ := haway
        · exact hsame
        · exact absurd hstep.2 (hallowed _ _ _ hasideStaged (by simp [hthere]))
    refine ⟨hrequires _ _ hback.frame (.inl hback.destination), fun answer v hstep ↦ ?_⟩
    have hremoved := hback.remove touches_staged hne.symm hstep.1
    exact ⟨hremoved.frame, hremoved.destination⟩

theorem wp_swapIn (h : Untouched machine destination start s)
    (hwindows : machine.windows = true)
    (hstaged : s.files (stagedName machine.windows) = some (.file content))
    (hne : destination ≠ stagedName machine.windows)
    (hallowed : ∀ t source e, source ≠ stagedName machine.windows → t.files source ≠ none →
      ¬ allowed t (.rename source destination) (.error e)) :
    (contract machine sha256 entry requires allowed).wp (swapIn machine destination)
      (fun result t ↦ Frame machine destination start t ∧ match result with
        | .ok _ => t.files destination = some (.file content)
        | .error _ => t.files destination = start.files destination) s := by
  refine ⟨hrequires _ _ h.frame (.inl h.destination), ?_⟩
  rintro uuid t ⟨⟨rfl, huuid, hnew⟩, -⟩
  refine ⟨hrequires _ _ h.frame (.inl h.destination), ?_⟩
  rintro entries t ⟨rfl, -⟩
  have hold : isOldImage machine.isUuid (fileStem destination)
      (withExtension destination ("old.".toList ++ uuid)) = true := aside_old_image huuid
  have hfresh : t.files (withExtension destination ("old.".toList ++ uuid)) = none := by
    rw [← hnew (fileStem destination)]
    simp [withExtension]
  show (contract machine sha256 entry requires allowed).wp
    (sweepEntries machine (fileStem destination) entries >>= _) _ t
  refine Contract.wp_seq (R := fun result u ↦ result = .ok () ∧
    Untouched machine destination start u ∧
    u.files (stagedName machine.windows) = t.files (stagedName machine.windows) ∧
    ∀ name, t.files name = none → u.files name = none) ?_ ?_ ?_
  · cases entries with
    | ok names => exact wp_sweep hrequires names h
    | error _ => exact ⟨rfl, h, rfl, fun _ h ↦ h⟩
  · rintro _ u ⟨-, hu, hsame, hgone⟩
    refine Contract.wp_seq (wp_moveAside hrequires hu hold (hgone _ hfresh) hne) ?_ ?_
    · rintro _ v ⟨hframe, hv, haway⟩
      exact wp_moveIn hrequires hframe hwindows hold (hv.trans (hsame.trans hstaged)) haway hne
        hallowed
    · exact fun e v hv ↦ ⟨hv.frame, hv.destination⟩
  · exact fun e u hu ↦ nomatch hu.1

theorem wp_renameIn (h : Untouched machine destination start s)
    (hstaged : s.files (stagedName machine.windows) = some (.file content))
    (hne : destination ≠ stagedName machine.windows) :
    (contract machine sha256 entry requires allowed).wp (renameIn machine destination)
      (fun result t ↦ Frame machine destination start t ∧ match result with
        | .ok _ => t.files destination = some (.file content)
        | .error _ => t.files destination = start.files destination) s := by
  refine ⟨hrequires _ _ h.frame (.inl h.destination), fun answer t hstep ↦ ?_⟩
  cases answer with
  | ok _ =>
    have hframe := h.frame.trans (.of_rename hstep.1 touches_staged (.inl rfl))
    obtain ⟨node, hnode, rfl⟩ := hstep.1
    obtain rfl := Option.some.inj (hstaged.symm.trans hnode)
    exact ⟨hframe, by simp⟩
  | error e =>
    obtain rfl := hstep.1
    refine ⟨hrequires _ _ h.frame (.inl h.destination), fun answer u hstep ↦ ?_⟩
    have hremoved := h.remove touches_staged hne.symm hstep.1
    exact ⟨hremoved.frame, hremoved.destination⟩

theorem wp_installOver {newBinary : Name} (hnew : start.unpacked newBinary = some content)
    (hne : destination ≠ stagedName machine.windows)
    (hallowed : ∀ t source e, source ≠ stagedName machine.windows → t.files source ≠ none →
      ¬ allowed t (.rename source destination) (.error e)) :
    (contract machine sha256 entry requires allowed).wp (installOver machine newBinary destination)
      (fun result t ↦ Frame machine destination start t ∧ match result with
        | .ok _ => t.files destination = some (.file content)
        | .error _ => t.files destination = start.files destination) start := by
  have hstart : Untouched machine destination start start := .refl destination start
  refine ⟨hrequires _ _ hstart.frame (.inl rfl), ?_⟩
  rintro isDir t ⟨⟨rfl, -⟩, -⟩
  cases isDir with
  | true => exact ⟨hstart.frame, rfl⟩
  | false =>
    refine ⟨hrequires _ _ hstart.frame (.inl rfl), fun answer s hstep ↦ ?_⟩
    have hs := hstart.remove touches_staged hne.symm hstep.1
    refine ⟨hrequires _ _ hs.frame (.inl hs.destination), fun answer t hcopy ↦ ?_⟩
    cases answer with
    | error e =>
      obtain ⟨begun, rfl⟩ := hcopy.1
      have ht : Untouched machine destination _ { s with
          files := Function.update s.files (stagedName machine.windows) begun } :=
        hs.update touches_staged hne.symm
      exact ⟨ht.frame, ht.destination⟩
    | ok _ =>
      obtain ⟨copied, hcopied, rfl⟩ := hcopy.1
      obtain rfl : copied = content := by
        rw [hs.frame.unpacked, hnew] at hcopied
        exact (Option.some.inj hcopied).symm
      have ht : Untouched machine destination _ { s with
          files := Function.update s.files (stagedName machine.windows)
            (some (.file copied)) } :=
        hs.update touches_staged hne.symm
      have hstaged : Function.update s.files (stagedName machine.windows)
          (some (.file copied)) (stagedName machine.windows) = some (.file copied) :=
        Function.update_self ..
      show (contract machine sha256 entry requires allowed).wp
        (if machine.windows = true then swapIn machine destination else _) _ _
      split_ifs with hwindows
      · exact wp_swapIn hrequires ht hwindows hstaged hne hallowed
      · refine ⟨hrequires _ _ ht.frame (.inl ht.destination), ?_⟩
        rintro executable u ⟨rfl, -⟩
        cases executable with
        | error _ => exact ⟨ht.frame, ht.destination⟩
        | ok _ => exact wp_renameIn hrequires ht hstaged hne

end

/-! ## The whole update -/

section

variable (machine : Machine) (sha256 : β → List Char) (entry : β → Name → Option β)
  (published : PublishedArchive) (destination : Name)

/-- A file that is an entry of an archive with the published digest. -/
def Verified (file : Name) (content : β) : Prop :=
  ∃ archive, sha256 archive = published.digest ∧
    entry archive (insideArchive machine published file) = some content

/-- A name holds what it held, or a whole verified file. -/
def Whole (name file : Name) (start t : Disk β) : Prop :=
  t.files name = start.files name ∨
    ∃ content, Verified machine sha256 entry published file content ∧
      t.files name = some (.file content)

/-- On Windows a name is empty between two renames: the next call is a rename onto it. -/
def Away (name : Name) (t : Disk β) (c : Call) : Prop :=
  machine.windows = true ∧ t.files name = none ∧ ∃ source, c = .rename source name

/-- What holds before every call: the binary is whole or away, and so is the supervisor. -/
def Moment (start t : Disk β) (c : Call) : Prop :=
  (Whole machine sha256 entry published destination machine.target.binary.toList start t ∨
      Away machine destination t c) ∧
    (machine.windows = true →
      Whole machine sha256 entry published supervisorName supervisorName start t ∨
        Away machine supervisorName t c)

/-- What holds at the end: the binary and the supervisor are whole, and after a failure the binary
is as it was. -/
def Ended (start : Disk β) (result : Except CliError Unit) (t : Disk β) : Prop :=
  Whole machine sha256 entry published destination machine.target.binary.toList start t ∧
    (machine.windows = true →
      Whole machine sha256 entry published supervisorName supervisorName start t) ∧
    ∀ e, result = .error e → t.files destination = start.files destination

/-- The binary is not named like the staging file, nor like the supervisor or an old image of it. -/
structure Apart : Prop where
  staged : destination ≠ stagedName machine.windows
  supervisor : machine.windows = true → destination ≠ supervisorName
  image : machine.windows = true →
    isOldImage machine.isUuid (fileStem supervisorName) destination = false

end

section

variable {sha256 : β → List Char} {entry : β → Name → Option β}
  {published : PublishedArchive} {destination : Name} {start s t : Disk β}

theorem binary_ne_supervisor (machine : Machine) :
    machine.target.binary.toList ≠ supervisorName := by
  have hrow := machine.published
  unfold hostTarget at hrow
  split at hrow
  case h_6 => exact nomatch hrow
  all_goals
    rw [← Option.some.inj hrow]
    unfold supervisorName
    dsimp only
    rw [String.toList_ofList, String.toList_ofList]
    decide

theorem supervisor_ne_staged (windows : Bool) : supervisorName ≠ stagedName windows := by
  refine ne_staged windows ?_
  unfold supervisorName
  rw [String.toList_ofList]
  decide

theorem moment_of_files (c : Call) (hfiles : t.files = start.files) :
    Moment machine sha256 entry published destination start t c :=
  ⟨.inl (.inl (congrFun hfiles _)), fun _ ↦ .inl (.inl (congrFun hfiles _))⟩

theorem ended_of_files (result : Except CliError Unit) (hfiles : t.files = start.files) :
    Ended machine sha256 entry published destination start result t :=
  ⟨.inl (congrFun hfiles _), fun _ ↦ .inl (congrFun hfiles _), fun _ _ ↦ congrFun hfiles _⟩

theorem whole_of_placed {name file : Name} {content : β} {c : Call}
    (hverified : Verified machine sha256 entry published file content)
    (hbefore : Whole machine sha256 entry published name file start s)
    (h : Placed machine name content s t c) :
    Whole machine sha256 entry published name file start t ∨ Away machine name t c := by
  obtain hsame | hnew | haway := h
  · obtain hold | ⟨old, hold, hfile⟩ := hbefore
    · exact .inl (.inl (hsame.trans hold))
    · exact .inl (.inr ⟨old, hold, hsame.trans hfile⟩)
  · exact .inl (.inr ⟨content, hverified, hnew⟩)
  · exact .inr haway

/-- What is kept of a verified archive once an entry was taken out of it. -/
structure Unpacked (machine : Machine) (sha256 : β → List Char) (entry : β → Name → Option β)
    (published : PublishedArchive) (start s : Disk β) : Prop where
  files : s.files = start.files
  archive : ∃ archive, s.archive = some archive ∧ sha256 archive = published.digest
  binary : ∃ content, s.unpacked machine.target.binary.toList = some content ∧
    Verified machine sha256 entry published machine.target.binary.toList content

theorem supervisor_untouched (hapart : Apart machine destination)
    (hwindows : machine.windows = true) : ¬ Touches machine destination supervisorName := by
  rintro (heq | heq | hold)
  · exact hapart.supervisor hwindows heq.symm
  · exact supervisor_ne_staged _ heq
  · exact absurd (supervisor_not_old_image.symm.trans hold) nofun

theorem binary_untouched (hapart : Apart machine destination)
    (hwindows : machine.windows = true) : ¬ Touches machine supervisorName destination := by
  rintro (heq | heq | hold)
  · exact hapart.supervisor hwindows heq
  · exact hapart.staged heq
  · exact absurd ((hapart.image hwindows).symm.trans hold) nofun

theorem wp_replaceSupervisor (hapart : Apart machine destination)
    (h : Unpacked machine sha256 entry published start s) :
    (contract machine sha256 entry (Moment machine sha256 entry published destination start)
      (Benign machine destination)).wp (replaceSupervisor machine published)
      (fun _ t ↦ t.files destination = start.files destination ∧
        (machine.windows = true →
          Whole machine sha256 entry published supervisorName supervisorName start t) ∧
        ∃ content, t.unpacked machine.target.binary.toList = some content ∧
          Verified machine sha256 entry published machine.target.binary.toList content) s := by
  unfold replaceSupervisor
  split_ifs with hwindows
  · obtain ⟨content, hcontent, hverified⟩ := h.binary
    refine ⟨moment_of_files _ h.files, fun answer t hstep ↦ ?_⟩
    cases answer with
    | error e =>
      obtain ⟨begun, rfl⟩ := hstep.1
      refine ⟨congrFun h.files _, fun _ ↦ .inl (congrFun h.files _), content, ?_, hverified⟩
      simpa [binary_ne_supervisor machine] using hcontent
    | ok _ =>
      obtain ⟨archive, taken, harchive, htaken, rfl⟩ := hstep.1
      obtain ⟨read, hread, hdigest⟩ := h.archive
      obtain rfl := Option.some.inj (harchive.symm.trans hread)
      have hsupervisor : Verified machine sha256 entry published supervisorName taken :=
        ⟨archive, hdigest, htaken⟩
      have hbinary : Function.update s.unpacked supervisorName (some taken)
          machine.target.binary.toList = some content := by
        simpa [binary_ne_supervisor machine] using hcontent
      have huntouched := binary_untouched hapart hwindows
      have hnew : Function.update s.unpacked supervisorName (some taken) supervisorName =
          some taken := Function.update_self ..
      refine Contract.wp_mono (wp_installOver ?_ hnew (supervisor_ne_staged _) ?_)
        fun result t ht ↦ ?_
      · intro t c hframe hplaced
        refine ⟨.inl (.inl ((hframe.files _ huntouched).trans (congrFun h.files _))), fun _ ↦ ?_⟩
        exact whole_of_placed hsupervisor (.inl (congrFun h.files _)) hplaced
      · rintro t source e hsource hthere (heq | hgone | hne)
        · exact hsource heq
        · exact hthere hgone
        · exact hne.2 rfl
      · obtain ⟨hframe, hresult⟩ := ht
        refine ⟨(hframe.files _ huntouched).trans (congrFun h.files _), fun _ ↦ ?_, content, ?_,
          hverified⟩
        · cases result with
          | ok _ => exact .inr ⟨taken, hsupervisor, hresult⟩
          | error _ => exact .inl (hresult.trans (congrFun h.files _))
        · rw [hframe.unpacked]
          exact hbinary
  · exact ⟨congrFun h.files _, fun h ↦ absurd h hwindows, h.binary⟩

theorem wp_installVerified (hapart : Apart machine destination) (hfiles : s.files = start.files)
    (harchive : ∃ archive, s.archive = some archive ∧ sha256 archive = published.digest) :
    (contract machine sha256 entry (Moment machine sha256 entry published destination start)
      (Benign machine destination)).wp (installVerified machine published destination)
      (Ended machine sha256 entry published destination start) s := by
  refine ⟨moment_of_files _ hfiles, ?_⟩
  rintro written s ⟨rfl, -⟩
  cases written with
  | error e => exact ended_of_files _ hfiles
  | ok _ =>
    refine ⟨moment_of_files _ hfiles, fun answer t hstep ↦ ?_⟩
    cases answer with
    | error e =>
      obtain ⟨begun, rfl⟩ := hstep.1
      exact ended_of_files _ hfiles
    | ok _ =>
      obtain ⟨archive, content, hread, hentry, rfl⟩ := hstep.1
      obtain ⟨same, hsame, hdigest⟩ := harchive
      obtain rfl := Option.some.inj (hread.symm.trans hsame)
      have hnew : Function.update s.unpacked machine.target.binary.toList (some content)
          machine.target.binary.toList = some content := Function.update_self ..
      have hunpacked : Unpacked machine sha256 entry published start { s with
          unpacked := Function.update s.unpacked machine.target.binary.toList
            (some content) } :=
        ⟨hfiles, ⟨archive, hread, hdigest⟩, content, hnew, archive, hdigest, hentry⟩
      show (contract machine sha256 entry _ _).wp
        (replaceSupervisor machine published >>= _) _ _
      refine Contract.wp_seq (wp_replaceSupervisor hapart hunpacked) ?_ ?_
      · rintro _ u ⟨hdestination, hsupervisor, new, hnew, hverified⟩
        refine Contract.wp_seq (wp_installOver ?_ hnew hapart.staged ?_) ?_ ?_
        · intro t c hframe hplaced
          refine ⟨whole_of_placed hverified (.inl hdestination) hplaced, fun hwindows ↦ .inl ?_⟩
          rw [Whole, hframe.files _ (supervisor_untouched hapart hwindows)]
          exact hsupervisor hwindows
        · rintro t source e hsource hthere (heq | hgone | hne)
          · exact hsource heq
          · exact hthere hgone
          · exact hne.1 rfl
        · rintro _ v ⟨hframe, hplaced⟩
          have hwhole : Whole machine sha256 entry published destination
              machine.target.binary.toList start v := .inr ⟨new, hverified, hplaced⟩
          have hkept : machine.windows = true →
              Whole machine sha256 entry published supervisorName supervisorName start v := by
            intro hwindows
            rw [Whole, hframe.files _ (supervisor_untouched hapart hwindows)]
            exact hsupervisor hwindows
          refine ⟨⟨.inl hwhole, fun hwindows ↦ .inl (hkept hwindows)⟩, ?_⟩
          rintro written w ⟨rfl, hwritten⟩
          cases written with
          | ok _ => exact ⟨hwhole, hkept, nofun⟩
          | error _ => exact hwritten.elim
        · rintro e v ⟨hframe, hkept⟩
          refine ⟨.inl (hkept.trans hdestination), fun hwindows ↦ ?_,
            fun _ _ ↦ hkept.trans hdestination⟩
          rw [Whole, hframe.files _ (supervisor_untouched hapart hwindows)]
          exact hsupervisor hwindows
      · rintro e u ⟨hdestination, hsupervisor, -⟩
        exact ⟨.inl hdestination, hsupervisor, fun _ _ ↦ hdestination⟩

theorem wp_replaceFromArchive (hapart : Apart machine destination) :
    (contract machine sha256 entry (Moment machine sha256 entry published destination start)
      (Benign machine destination)).wp (replaceFromArchive machine published destination)
      (Ended machine sha256 entry published destination start) start := by
  refine ⟨moment_of_files _ rfl, ?_⟩
  rintro answer s ⟨rfl, -⟩
  cases answer with
  | error e => exact ended_of_files _ rfl
  | ok _ =>
  refine ⟨moment_of_files _ rfl, ?_⟩
  rintro answer s ⟨rfl, -⟩
  cases answer with
  | error e => exact ended_of_files _ rfl
  | ok _ =>
  refine ⟨moment_of_files _ rfl, ?_⟩
  rintro answer s ⟨rfl, -⟩
  cases answer with
  | error e => exact ended_of_files _ rfl
  | ok _ =>
  refine ⟨moment_of_files _ rfl, ?_⟩
  rintro answer t ⟨⟨archive, rfl⟩, -⟩
  cases answer with
  | error e => exact ended_of_files _ rfl
  | ok _ =>
  refine ⟨moment_of_files _ rfl, ?_⟩
  rintro answer t ⟨⟨rfl, hdigest⟩, -⟩
  cases answer with
  | error e => exact ended_of_files _ rfl
  | ok actual =>
  show (contract machine sha256 entry _ _).wp
    (if actual ≠ published.digest then _ else installVerified machine published destination) _ _
  split_ifs with hsame
  · exact ended_of_files _ rfl
  · obtain ⟨read, hread, hactual⟩ := hdigest actual rfl
    refine wp_installVerified hapart rfl ⟨read, hread, ?_⟩
    rw [← hactual]
    exact not_not.mp hsame

end

end Disk

/-! ## The version decision -/

/-- One version is newer than another. -/
def Newer (new old : Nat × Nat × Nat) : Prop :=
  old.1 < new.1 ∨ old.1 = new.1 ∧ (old.2.1 < new.2.1 ∨ old.2.1 = new.2.1 ∧ old.2.2 < new.2.2)

theorem compare_versions_gt {left right : List Char} (h : compareVersions left right = .gt) :
    ∃ new old, parseVersion left = some new ∧ parseVersion right = some old ∧ Newer new old := by
  unfold compareVersions at h
  split at h
  · next new old hnew hold =>
    refine ⟨new, old, hnew, hold, ?_⟩
    simp only [Ordering.then_eq_gt, Nat.compare_eq_gt, Nat.compare_eq_eq] at h
    obtain h | ⟨hmajor, h | ⟨hminor, hpatch⟩⟩ := h
    · exact .inl h
    · exact .inr ⟨hmajor.symm, .inl h⟩
    · exact .inr ⟨hmajor.symm, .inr ⟨hminor.symm, hpatch⟩⟩
  · exact nomatch h

/-- The release a call of `perform` installs. -/
def PerformCall.installs : PerformCall → Option PublishedArchive
  | .act (.replaceFromArchive published _) | .act (.packageManager _ _ published) => some published
  | _ => none

section

variable {machine : Machine} {args : UpdateArgs} {running : List Char}

/-- Others answer as they like; a release is only installed when it is newer. -/
def decided (running : List Char) : Contract PerformCall PerformCall.Answer Unit where
  requires _ c := ∀ published ∈ c.installs, compareVersions published.version running = .gt
  steps _ _ _ _ := True

/-- Every call of a part that installs a release installs a newer one. -/
def Decent (running : List Char) {α : Type} (p : Performance α) : Prop :=
  (decided running).wp p (fun _ _ ↦ True) ()

theorem decent_bind {α β : Type} {p : Performance α} {f : α → Performance β}
    (hp : Decent running p) (hf : ∀ value, Decent running (f value)) :
    Decent running (p >>= f) :=
  Contract.wp_seq hp (fun value _ _ ↦ hf value) fun _ _ _ ↦ trivial

theorem decent_want {c : PerformCall} (hc : c.installs = none) : Decent running (want c) :=
  ⟨by simp [decided, hc], fun _ _ _ ↦ trivial⟩

theorem decent_ofExcept {α δ : Type} {wrap : δ → CliError} (value : Except δ α) :
    Decent running (.ofExcept wrap value) := by
  cases value <;> trivial

theorem decent_tell (line : String) : Decent running (tell line) :=
  decent_bind (decent_want rfl) fun _ ↦ decent_ofExcept _

theorem decent_act {a : Act} (ha : ∀ published ∈ (PerformCall.act a).installs,
    compareVersions published.version running = .gt) : Decent running (act a) :=
  ⟨ha, fun answer _ _ ↦ by cases answer <;> trivial⟩

theorem decent_refusal (installation : Installation) :
    Decent running (refusal machine installation) := by
  unfold refusal
  split
  · trivial
  · trivial
  · exact decent_bind (decent_want rfl) fun answer ↦ by cases answer <;> trivial
  · trivial
  · trivial
  · trivial

theorem decent_done {α : Type} (value : α) :
    Decent running (pure value : Performance α) :=
  trivial

theorem decent_updatable : Decent running (updatable args running) := by
  refine decent_bind (decent_want rfl) fun detected ↦ decent_bind (decent_ofExcept _) fun found ↦ ?_
  refine decent_bind ?_ fun installation ↦ ?_
  · unfold owned
    split_ifs
    · exact decent_bind (decent_want rfl) fun answer ↦
        decent_bind (decent_ofExcept _) fun _ ↦ decent_done _
    · exact decent_done _
  · unfold due
    split_ifs
    · exact decent_done _
    · refine decent_bind (decent_want rfl) fun version ↦ ?_
      split
      · split_ifs <;> exact decent_done _
      · exact decent_done _
    · exact decent_done _

theorem decent_forceCurrent (published : PublishedArchive) (problem : Option CliError) :
    Decent running (forceCurrent args published problem) := by
  unfold forceCurrent
  split
  · split_ifs
    · exact decent_tell _
    · trivial
  · split_ifs
    · refine decent_bind (decent_want rfl) fun answer ↦ ?_
      split
      · exact decent_act nofun
      · exact decent_tell _
    · exact decent_act nofun

theorem decent_notNewer (published : PublishedArchive) (problem : Option CliError) :
    Decent running (notNewer args running published problem) := by
  unfold notNewer
  dsimp only
  split_ifs
  · exact decent_forceCurrent published problem
  · refine decent_bind (decent_tell _) fun _ ↦ decent_bind ?_ fun late ↦ ?_
    · unfold behind
      split_ifs
      · exact decent_want rfl
      · exact decent_done _
    · split_ifs
      · exact decent_bind (decent_act nofun) fun _ ↦ decent_act nofun
      · exact decent_bind (decent_tell _) fun _ ↦ decent_act nofun

theorem decent_reportAvailable (published : PublishedArchive) (problem : Option CliError) :
    Decent running (reportAvailable args published problem) := by
  refine decent_bind (decent_tell _) fun _ ↦ decent_bind (decent_tell _) fun _ ↦ ?_
  split
  · refine decent_bind (decent_tell _) fun _ ↦ ?_
    split
    · exact decent_tell _
    · exact decent_done _
  · split_ifs
    · refine decent_bind (decent_want rfl) fun answer ↦ ?_
      split
      · exact decent_tell _
      · exact decent_bind (decent_tell _) fun _ ↦ decent_act nofun
    · exact decent_tell _

theorem decent_updateChannel (installation : Installation) {published : PublishedArchive}
    (hnewer : compareVersions published.version running = .gt) :
    Decent running (updateChannel machine installation published) := by
  have hinstalls : ∀ a, (PerformCall.act a).installs = some published →
      Decent running (act a) := fun a ha ↦ decent_act fun other hother ↦ by
    rw [ha] at hother
    rwa [← Option.some.inj hother]
  unfold updateChannel
  split
  · exact hinstalls _ rfl
  · refine decent_bind (decent_want rfl) fun answer ↦ decent_bind (decent_ofExcept _) fun _ ↦ ?_
    exact decent_bind (hinstalls _ rfl) fun _ ↦ decent_act nofun
  · refine decent_bind ⟨?_, fun _ _ _ ↦ trivial⟩ fun answer ↦ decent_bind ?_ fun _ ↦ ?_
    · simpa [decided, PerformCall.installs] using hnewer
    · cases answer
      · exact decent_tell _
      · exact decent_done _
    · exact decent_bind (hinstalls _ rfl) fun _ ↦ decent_bind (decent_tell _) fun _ ↦
        decent_act nofun
  · exact decent_bind (hinstalls _ rfl) fun _ ↦ decent_act nofun
  · exact decent_bind (decent_refusal installation) fun _ ↦ trivial
  · exact decent_bind (decent_refusal installation) fun _ ↦ trivial

theorem decent_performOn (installation : Installation) :
    Decent running (performOn machine args running installation) := by
  refine decent_bind (decent_want rfl) fun source ↦ decent_bind (decent_ofExcept _) fun _ ↦ ?_
  refine decent_bind (decent_tell _) fun _ ↦ decent_bind (decent_tell _) fun _ ↦ ?_
  refine decent_bind (decent_tell _) fun _ ↦ decent_bind (decent_tell _) fun _ ↦ ?_
  refine decent_bind (decent_want rfl) fun flushed ↦ decent_bind (decent_ofExcept _) fun _ ↦ ?_
  refine decent_bind (decent_want rfl) fun sums ↦ decent_bind (decent_ofExcept _) fun document ↦ ?_
  refine decent_bind (decent_ofExcept _) fun published ↦ decent_bind (decent_tell _) fun _ ↦ ?_
  refine decent_bind (decent_refusal installation) fun problem ↦ ?_
  split_ifs with hold hcheck
  · exact decent_notNewer published problem
  · exact decent_reportAvailable published problem
  · split
    · trivial
    · refine decent_bind ?_ fun _ ↦ decent_bind (decent_tell _) fun _ ↦ ?_
      · unfold preflight
        split_ifs
        · exact decent_act nofun
        · exact decent_done _
      · refine decent_bind (decent_updateChannel installation (not_not.mp hold)) fun _ ↦ ?_
        refine decent_bind ?_ fun _ ↦ decent_act nofun
        unfold tellService
        split_ifs
        · exact decent_act nofun
        · exact decent_act nofun

theorem decent_perform : Decent running (perform machine args running) := by
  refine decent_bind decent_updatable fun found ↦ ?_
  split
  · exact decent_done _
  · exact decent_performOn _

end

/-- An update never leaves a broken binary: whichever operations fail and wherever it dies, the
binary is whole or away between two renames, and where the update ends it is whole, and after a
failure as it was. `perform` installs newer releases only. -/
theorem update_safe {β : Type} (machine : Machine) (sha256 : β → List Char)
    (entry : β → Name → Option β) (published : PublishedArchive) (destination : Name)
    (start : Disk β) (running : List Char) (hapart : Disk.Apart machine destination) :
    (∀ q t, (Disk.contract machine sha256 entry (fun _ _ ↦ True)
        (Disk.Benign machine destination)).Runs
        (replaceFromArchive machine published destination) start q t →
      (∀ c next, q = .ask c next →
        Disk.Moment machine sha256 entry published destination start t c) ∧
      ∀ result, q = .done result →
        Disk.Ended machine sha256 entry published destination start result t) ∧
    ∀ args q, Contract.anything.Runs (perform machine args running) () q () →
      ∀ c next, q = .ask c next → ∀ installed ∈ c.installs, ∃ new old,
        parseVersion installed.version = some new ∧ parseVersion running = some old ∧
          Newer new old := by
  constructor
  · intro q t hruns
    have hwp := Contract.wp_runs (Disk.wp_replaceFromArchive hapart)
      (Contract.Runs.of_steps (C := Disk.contract machine sha256 entry (fun _ _ ↦ True)
        (Disk.Benign machine destination)) (fun _ _ _ _ h ↦ h) hruns)
    constructor
    · rintro c next rfl
      exact hwp.1
    · rintro result rfl
      exact hwp
  · rintro args q hruns c next rfl installed hinstalled
    have hwp := Contract.wp_runs decent_perform
      (hruns.of_steps (D := decided running) fun _ _ _ _ _ ↦ trivial)
    exact compare_versions_gt (hwp.1 installed hinstalled)

/-- The binary that the install script puts in place on Linux. -/
theorem update_safe_linux :
    let machine : Machine := ⟨"linux", "x86_64",
      ⟨"x86_64-unknown-linux-gnu", "tar.gz", "runner-manager"⟩, rfl, "/usr/local/bin",
      fun _ ↦ false⟩
    ∀ (sha256 : List UInt8 → List Char) (entry : List UInt8 → Name → Option (List UInt8))
      (published : PublishedArchive) (start t : Disk (List UInt8)) (result : Except CliError Unit),
      (Disk.contract machine sha256 entry (fun _ _ ↦ True)
        (Disk.Benign machine "runner-manager".toList)).Runs
        (replaceFromArchive machine published "runner-manager".toList) start (.done result) t →
      Disk.Ended machine sha256 entry published "runner-manager".toList start result t := by
  intro machine sha256 entry published start t result hruns
  have hapart : Disk.Apart machine "runner-manager".toList :=
    ⟨ne_staged _ (by rw [String.toList_ofList]; decide), fun h ↦ absurd h (by decide),
      fun h ↦ absurd h (by decide)⟩
  exact ((update_safe machine sha256 entry published _ start "0.4.43".toList hapart).1 _ _
    hruns).2 _ rfl

/-- On Windows the rename that moves the new binary in may fail, and so may the one that moves the
old one back: then nothing is left at the path of the binary. -/
theorem rollback_may_empty {machine : Machine} {binary : Name}
    (hwindows : machine.windows = true) (huuid : machine.isUuid [] = true)
    (hne : binary ≠ stagedName machine.windows) (hplain : ¬ ".old.".toList <:+: binary) :
    ∃ (start t : Disk Nat) (e : CliError), start.files binary = some (.file 1) ∧
      (Disk.contract machine (fun _ ↦ []) (fun _ _ ↦ none) (fun _ _ ↦ True)
        (fun _ _ _ ↦ True)).Runs (installOver machine binary binary) start (.done (.error e)) t ∧
      t.files binary = none := by
  let start : Disk Nat :=
    ⟨fun name ↦ if name = binary then some (.file 1) else none, none, fun _ ↦ some 2⟩
  let aside : Name := withExtension binary ("old.".toList ++ [])
  have himage : isOldImage machine.isUuid (fileStem binary) aside = true := aside_old_image huuid
  have haside : aside ≠ binary := (Disk.touches_old_image himage).2.1
  let staged : Disk Nat := { start with
    files := Function.update start.files (stagedName machine.windows) (some (.file 2)) }
  let away : Disk Nat := { start with
    files := Function.update (Function.update staged.files binary none) aside (some (.file 1)) }
  have hold : staged.files binary = some (.file 1) := by simp [staged, start, hne]
  have hfresh : ∀ stem, staged.files (stem ++ ".old.".toList ++ []) = none := by
    intro stem
    have himage : isOldImage machine.isUuid stem (stem ++ ".old.".toList ++ []) = true :=
      old_image_iff.mpr ⟨[], rfl, huuid⟩
    have hnotStaged : stem ++ ".old.".toList ++ [] ≠ stagedName machine.windows := by
      intro heq
      exact absurd ((heq ▸ himage).symm.trans (staged_not_old_image _)) nofun
    have hnotBinary : stem ++ ".old.".toList ++ [] ≠ binary := by
      rintro rfl
      exact hplain ⟨stem, [], rfl⟩
    exact (Function.update_of_ne hnotStaged _ _).trans (if_neg hnotBinary)
  let denied : IoError := ⟨true, "Access is denied. (os error 5)"⟩
  refine ⟨start, away, failed "put the new binary in place" denied, if_pos rfl, ?_, ?_⟩
  · refine .step false ⟨⟨rfl, nofun⟩, trivial⟩ ?_
    refine .step (.error denied) ⟨rfl, trivial⟩ ?_
    refine .step (t := staged) (.ok ()) ⟨⟨2, rfl, rfl⟩, trivial⟩ ?_
    show Contract.Runs _ (if machine.windows = true then swapIn machine binary else _) staged _ away
    rw [if_pos hwindows]
    refine .step [] ⟨⟨rfl, huuid, hfresh⟩, trivial⟩ ?_
    refine .step (.error denied) ⟨rfl, trivial⟩ ?_
    refine .step true ⟨⟨rfl, fun _ ↦ by simp [hold]⟩, trivial⟩ ?_
    refine .step (t := away) (.ok ()) ⟨⟨.file 1, hold, rfl⟩, trivial⟩ ?_
    refine .step (.error denied) ⟨rfl, trivial⟩ ?_
    refine .step (.error denied) ⟨rfl, trivial⟩ ?_
    refine .step (.error denied) ⟨rfl, trivial⟩ ?_
    exact .cut _ _
  · exact (Function.update_of_ne haside.symm _ _).trans (Function.update_self ..)

/-- `runner-manager.exe` is lost so. -/
theorem rollback_empties :
    ∃ (machine : Machine) (start t : Disk Nat) (e : CliError),
      start.files "runner-manager.exe".toList = some (.file 1) ∧
      (Disk.contract machine (fun _ ↦ []) (fun _ _ ↦ none) (fun _ _ ↦ True)
        (fun _ _ _ ↦ True)).Runs
        (installOver machine "runner-manager.exe".toList "runner-manager.exe".toList) start
        (.done (.error e)) t ∧
      t.files "runner-manager.exe".toList = none :=
  ⟨⟨"windows", "x86_64", ⟨"x86_64-pc-windows-msvc", "zip", "runner-manager.exe"⟩, rfl,
    "C:\\runner-manager", fun _ ↦ true⟩,
    rollback_may_empty (by decide) rfl (ne_staged _ (by rw [String.toList_ofList]; decide))
      (by rw [String.toList_ofList, String.toList_ofList]; decide)⟩

end RunnerManager.App.Update
