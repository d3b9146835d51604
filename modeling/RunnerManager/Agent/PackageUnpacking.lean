import RunnerManager.Agent.PackageExtract
import RunnerManager.Lib.Result

/-!
# Unpacking onto a disk

What the operating system and `tar` do to a disk while a runner package is extracted, and what the
checks of one entry say about it. Read `unpacking` and `Archive.Plain` first: the first is what is
relied on, the second what the text of an archive must say for the checks to be worth something.
-/

namespace RunnerManager.Agent.Package

open RunnerManager.FileTree RunnerManager.Result

/-! ## The disk -/

/-- What stands where, and the mode of it. -/
structure Disk where
  tree : FileTree.Tree String
  mode : List String → Nat

/-- No setuid, setgid or sticky bit, and nothing for the group or others. -/
def Private (mode : Nat) : Prop :=
  mode &&& 0o7077 = 0

/-- Nothing but the place changed, and modes to allowed ones: a file may have more names, and
shares its mode with them. -/
structure Elsewhere (place : List String) (allowed : Nat → Prop) (disk next : Disk) : Prop where
  top : next.tree.top = disk.tree.top
  node : ∀ other, other ≠ place → next.tree.node other = disk.tree.node other
  mode : ∀ other, other ≠ place → next.mode other = disk.mode other ∨ allowed (next.mode other)

/-- The directories on the way along some names are there; those that were missing were made. -/
structure MakesWay (root names : List String) (disk next : Disk) : Prop where
  top : next.tree.top = disk.tree.top
  made : ∀ place,
    (next.tree.node place = disk.tree.node place ∧ next.mode place = disk.mode place) ∨
    disk.tree.node place = none ∧ next.tree.node place = some .directory ∧
      ∃ way, way <+: names ∧ Walk next.tree true root (way.map .normal) (.found place)

def linkNode (target : Path) : Node String :=
  .link (if target.isAbsolute then some [] else none) target.steps

/-- `tar` puts an entry at a place. A hard link is another name of what the last name of its
target names, be it a link; no directory is replaced and none gets a second name. -/
def Creates (root : List String) (entry : TarEntry) (mask : Nat) (place : List String)
    (disk next : Disk) : Prop :=
  Elsewhere place (· &&& mask = 0) disk next ∧
    match entry.kind with
    | .symlink => ∃ target, entry.linkName = .ok (some target) ∧
        disk.tree.node place ≠ some .directory ∧ next.tree.node place = some (linkNode target)
    | .link => ∃ target source, entry.linkName = .ok (some target) ∧
        Walk disk.tree false root target.steps (.found source) ∧
        disk.tree.node place ≠ some .directory ∧ disk.tree.node source ≠ some .directory ∧
        next.tree.node place = disk.tree.node source ∧ next.mode place = disk.mode source
    | .directory | .other _ =>
      (next.tree.node place = disk.tree.node place ∨
        disk.tree.node place = none ∧ next.tree.node place = some .directory ∨
        disk.tree.node place ≠ some .directory ∧ next.tree.node place = some .file) ∧
      (entry.kind = .directory → next.tree.node place = some .directory ∨
        ∃ base target, next.tree.node place = some (.link base target))

/-- What `unpack_in` did when it says that it unpacked an entry. The mode it sets has none of the
bits it is told to drop. -/
def Unpacked (root : List String) (entry : TarEntry) (preserve : Bool) (mask : Nat)
    (disk next : Disk) : Prop :=
  ∃ path front name made parent, entry.path = .ok path ∧ path.names = front ++ [name] ∧
    MakesWay root front disk made ∧ Walk made.tree true root (front.map .normal) (.found parent) ∧
    root <+: parent ∧
    Creates root entry (mask ||| if preserve then 0 else 0o7000) (parent ++ [name]) made next

/-- An entry may be handed to `tar`: its parent is inside the root, and so is what a link leads to,
read through the links that are there. -/
def Harmless (root : List String) (entry : TarEntry) (disk : Disk) : Prop :=
  ∀ path parent, entry.path = .ok path →
    Walk disk.tree true root (path.names.dropLast.map .normal) (.found parent) →
    root <+: parent ∧ ∀ target, entry.linkName = .ok (some target) →
      (entry.kind = .symlink → ∀ answer, Walk disk.tree true parent target.steps answer →
        root <+: answer.reached) ∧
      (entry.kind = .link → ∀ answer, Walk disk.tree false root target.steps answer →
        root <+: answer.reached)

/-- The operating system and `tar` while an archive is extracted into a directory at a place. Of a
call that failed nothing is known. -/
def unpacking (into : Path) (root : List String) :
    Contract ExtractCall ExtractCall.answer Disk where
  requires disk
    | .unpackIn entry _ _ => Harmless root entry disk
    | _ => True
  steps disk
    | .createDirAll path, answer, next => answer = Except.ok () →
        ∃ names place, path = into.join names ∧ MakesWay root names disk next ∧
          Walk next.tree true root (names.map .normal) (.found place) ∧
          next.tree.node place = some .directory
    | .createFile path, answer, next => answer = Except.ok () →
        ∃ names place, path = into.join names ∧
          Walk next.tree true root (names.map .normal) (.found place) ∧
          disk.tree.node place ≠ some .directory ∧ next.tree.node place = some .file ∧
          Elsewhere place (fun _ ↦ False) disk next
    | .copy _, answer, next => answer = Except.ok () → next = disk
    | .setPermissions path mode, answer, next => answer = Except.ok () →
        ∃ names place, path = into.join names ∧
          Walk disk.tree true root (names.map .normal) (.found place) ∧
          next.tree = disk.tree ∧ next.mode place = mode ∧
          ∀ other, next.mode other = disk.mode other ∨ next.mode other = mode
    | .unpackIn entry preserve mask, answer, next =>
      answer = Except.ok true → Unpacked root entry preserve mask disk next

/-! ## What the archive must say -/

def TarEntry.names (entry : TarEntry) : List String :=
  match entry.path with
  | .ok path => path.names
  | .error _ => []

def ZipEntry.names (entry : ZipEntry) : List String :=
  (entry.enclosedName.map Path.names).getD []

def linksOf (entries : List (Except String TarEntry)) (place : List String) : Prop :=
  place ≠ [] ∧ ∃ entry, .ok entry ∈ entries ∧ entry.kind = .symlink ∧ entry.names = place

def directoriesOf (entries : List (Except String TarEntry)) (place : List String) : Prop :=
  ∃ entry, .ok entry ∈ entries ∧ entry.kind = .directory ∧ entry.names = place

def zipDirectoriesOf (entries : List (Except String ZipEntry)) (place : List String) : Prop :=
  ∃ entry, .ok entry ∈ entries ∧ entry.isDir = true ∧ entry.names = place

/-- A tar archive whose text says what its links mean. -/
structure PlainTar (into : Path) (entries : List (Except String TarEntry)) : Prop where
  /-- Every directory above an entry is an entry, and none is a symbolic link. -/
  names : ∀ entry, .ok entry ∈ entries → ∀ way, way ≠ [] → way <+: entry.names →
    way ≠ entry.names → ¬ linksOf entries way ∧ directoriesOf entries way
  /-- A symbolic link that the checks accept never climbs above the root, and reads no `..` behind
  a symbolic link. -/
  symlinks : ∀ entry target, .ok entry ∈ entries → entry.kind = .symlink →
    entry.linkName = .ok (some target) →
    resolveLinkTarget into (into.join entry.names) .symlink target entry.display = .ok () →
    Tame (linksOf entries) entry.names.dropLast target.steps
  /-- A hard link that the checks accept never climbs above the root, and names no symbolic
  link. -/
  links : ∀ entry target, .ok entry ∈ entries → entry.kind = .link →
    entry.linkName = .ok (some target) →
    resolveLinkTarget into (into.join entry.names) .link target entry.display = .ok () →
    Avoids (linksOf entries) [] target.steps

/-- A zip archive whose directories are all listed and whose files have a mode. -/
structure PlainZip (entries : List (Except String ZipEntry)) : Prop where
  names : ∀ entry, .ok entry ∈ entries → ∀ way, way ≠ [] → way <+: entry.names →
    way ≠ entry.names → zipDirectoriesOf entries way
  modes : ∀ entry, .ok entry ∈ entries → entry.isDir = false → entry.unixMode ≠ none

/-- An archive whose text says what extracting it means. -/
def Archive.Plain (into : Path) : Archive → Prop
  | unreadable _ => True
  | zip entries => PlainZip entries
  | tarGz entries => PlainTar into entries

/-- A directory that nothing was put into yet, or that is still to be made. -/
structure Fresh (root : List String) (disk : Disk) : Prop where
  base : disk.tree.node root = none ∨ disk.tree.node root = some .directory
  empty : ∀ place, place ≠ [] → disk.tree.node (root ++ place) = none
  top : ∀ place, place ≠ [] → disk.tree.top (root ++ place) = false

/-- Everything an archive brought is inside the root, whatever its links lead to is, and nothing
of it has a mode for anyone else. -/
structure Contained (root : List String) (start disk : Disk) : Prop where
  outside : ∀ place, ¬ root <+: place → disk.tree.node place = start.tree.node place
  links : ∀ place base target, root <+: place →
    disk.tree.node place = some (.link base target) →
    ∀ answer, Walk disk.tree true (base.getD place.dropLast) target answer →
      root <+: answer.reached
  modes : ∀ place, root <+: place → place ≠ root →
    disk.tree.node place = some .file ∨ disk.tree.node place = some .directory →
    Private (disk.mode place)

/-- The header of an entry could be read. -/
structure TarEntry.Readable (entry : TarEntry) : Prop where
  path : ∃ path, entry.path = .ok path
  mode : ∃ mode, entry.mode = .ok mode
  linkName : ∃ target, entry.linkName = .ok target

/-- The checks refuse an entry in no other way than as unsafe, and name it. -/
def Archive.RefusesUnsafe (into : Path) : Archive → Prop
  | unreadable _ => True
  | zip entries => ∀ entry error, .ok entry ∈ entries → zipChecks into entry = .error error →
      error = .unsafeArchiveEntry entry.name
  | tarGz entries => ∀ entry error, .ok entry ∈ entries → entry.Readable →
      tarChecks into entry = .error error → error = .unsafeArchiveEntry entry.display

/-! ## The checks -/

section Checks

variable {into relative resolved : Path} {raw : String}

theorem resolveNames_ok {base : Path} (h : resolveNames raw base relative = .ok resolved) :
    resolved = base.join relative.names ∧ .parentDir ∉ relative := by
  induction relative generalizing base with
  | nil =>
    cases h
    simp [Path.join, Path.names]
  | cons component rest ih =>
    cases component with
    | normal part =>
      obtain ⟨hresolved, hparent⟩ := ih h
      refine ⟨hresolved.trans ?_, by simp [hparent]⟩
      simp [Path.join, Path.names]
    | curDir =>
      obtain ⟨hresolved, hparent⟩ := ih h
      exact ⟨hresolved, by simp [hparent]⟩
    | drive | rootDir | parentDir => cases h

theorem resolveNames_error {base : Path} {error : PackageError}
    (h : resolveNames raw base relative = .error error) : error = .unsafeArchiveEntry raw := by
  induction relative generalizing base with
  | nil => cases h
  | cons component rest ih =>
    cases component with
    | normal part => exact ih h
    | curDir => exact ih h
    | drive | rootDir | parentDir =>
      cases h
      rfl

theorem entryDestination_ok {destination : Option Path}
    (h : entryDestination into relative raw = .ok destination) :
    destination = (if relative.names = [] then none else some (into.join relative.names)) := by
  rw [entryDestination] at h
  obtain ⟨resolved, hresolved, h⟩ := bind_eq_ok.mp h
  cases h
  rw [resolveInside] at hresolved
  split_ifs at hresolved
  obtain ⟨path, hpath, hresolved⟩ := bind_eq_ok.mp hresolved
  split_ifs at hresolved
  cases hresolved
  obtain ⟨rfl, -⟩ := resolveNames_ok hpath
  refine if_congr ?_ rfl rfl
  simp [Path.join]

theorem entryDestination_error {error : PackageError}
    (h : entryDestination into relative raw = .error error) :
    error = .unsafeArchiveEntry raw := by
  rw [entryDestination] at h
  rcases bind_eq_error.mp h with h | ⟨_, _, h⟩
  · rw [resolveInside] at h
    split_ifs at h
    · cases h
      rfl
    · rcases bind_eq_error.mp h with h | ⟨_, _, h⟩
      · exact resolveNames_error h
      · split_ifs at h
        cases h
        rfl
  · cases h

theorem resolveTarget_error {base target : Path} {error : PackageError}
    (h : resolveTarget raw base target = .error error) : error = .unsafeArchiveEntry raw := by
  induction target generalizing base with
  | nil => cases h
  | cons component rest ih =>
    cases component with
    | normal part => exact ih h
    | curDir => exact ih h
    | parentDir =>
      rw [resolveTarget] at h
      split at h
      · exact ih h
      · cases h
        rfl
    | drive | rootDir =>
      cases h
      rfl

theorem resolveLinkTarget_error {destination target : Path} {kind : EntryType}
    {error : PackageError}
    (h : resolveLinkTarget into destination kind target raw = .error error) :
    error = .unsafeArchiveEntry raw := by
  rw [resolveLinkTarget] at h
  by_cases habsolute : target.isAbsolute = true
  · rw [if_pos habsolute] at h
    cases h
    rfl
  · rw [if_neg habsolute] at h
    rcases bind_eq_error.mp h with h | ⟨_, _, h⟩
    · exact resolveTarget_error h
    · split_ifs at h
      cases h
      rfl

end Checks

theorem tarChecks_ok {into destination : Path} {entry : TarEntry} {mode : Nat}
    (h : tarChecks into entry = .ok (some (destination, mode))) :
    entry.names ≠ [] ∧ destination = into.join entry.names ∧
      (entry.kind = .symlink ∨ entry.kind = .link → ∃ target,
        entry.linkName = .ok (some target) ∧
        resolveLinkTarget into (into.join entry.names) entry.kind target entry.display =
          .ok ()) := by
  rw [tarChecks] at h
  obtain ⟨relative, hrelative, h⟩ := bind_eq_ok.mp h
  obtain ⟨published, -, h⟩ := bind_eq_ok.mp h
  obtain ⟨linkTarget, hlink, h⟩ := bind_eq_ok.mp h
  obtain ⟨checked, hchecked, h⟩ := bind_eq_ok.mp h
  have hnames : entry.names = relative.names := by
    rw [TarEntry.names, mapError_eq_ok.mp hrelative]
  have hdestination := entryDestination_ok hchecked
  cases checked with
  | none => cases h
  | some path =>
    split_ifs at hdestination with hempty
    cases hdestination
    dsimp only at h
    rw [hnames]
    split_ifs at h with hkind
    · cases linkTarget with
      | none => cases h
      | some target =>
        obtain ⟨_, htarget, h⟩ := bind_eq_ok.mp h
        cases h
        exact ⟨hempty, rfl, fun _ ↦ ⟨target, mapError_eq_ok.mp hlink, htarget⟩⟩
    · cases h
      exact ⟨hempty, rfl, fun hlinked ↦ absurd hlinked hkind⟩

theorem tarChecks_none {into : Path} {entry : TarEntry} (h : tarChecks into entry = .ok none) :
    entry.names = [] := by
  rw [tarChecks] at h
  obtain ⟨relative, hrelative, h⟩ := bind_eq_ok.mp h
  obtain ⟨published, -, h⟩ := bind_eq_ok.mp h
  obtain ⟨linkTarget, -, h⟩ := bind_eq_ok.mp h
  obtain ⟨checked, hchecked, h⟩ := bind_eq_ok.mp h
  have hdestination := entryDestination_ok hchecked
  cases checked with
  | none =>
    rw [TarEntry.names, mapError_eq_ok.mp hrelative]
    by_contra hempty
    rw [if_neg hempty] at hdestination
    cases hdestination
  | some path =>
    dsimp only at h
    split_ifs at h
    · cases linkTarget with
      | none => cases h
      | some target =>
        obtain ⟨_, _, h⟩ := bind_eq_ok.mp h
        cases h
    · cases h

theorem tarChecks_error {into : Path} {entry : TarEntry} {error : PackageError}
    (hreadable : entry.Readable) (h : tarChecks into entry = .error error) :
    error = .unsafeArchiveEntry entry.display := by
  obtain ⟨⟨path, hpath⟩, ⟨mode, hmode⟩, ⟨target, htarget⟩⟩ := hreadable
  rw [tarChecks, hpath, hmode, htarget] at h
  rcases bind_eq_error.mp h with h | ⟨_, ⟨⟩, h⟩
  · cases h
  rcases bind_eq_error.mp h with h | ⟨_, ⟨⟩, h⟩
  · cases h
  rcases bind_eq_error.mp h with h | ⟨_, ⟨⟩, h⟩
  · cases h
  rcases bind_eq_error.mp h with h | ⟨checked, _, h⟩
  · exact entryDestination_error h
  · cases checked with
    | none => cases h
    | some destination =>
      dsimp only at h
      split_ifs at h
      · cases target with
        | none =>
          cases h
          rfl
        | some target =>
          rcases bind_eq_error.mp h with h | ⟨_, _, h⟩
          · exact resolveLinkTarget_error h
          · cases h
      · cases h

theorem zipChecks_ok {into : Path} {entry : ZipEntry} {checked : Option Path}
    (h : zipChecks into entry = .ok checked) :
    checked = (if entry.names = [] then none else some (into.join entry.names)) := by
  rw [zipChecks] at h
  cases henclosed : entry.enclosedName with
  | none => simp [henclosed, Bind.bind, Except.bind] at h
  | some relative =>
    rw [henclosed] at h
    obtain ⟨_, ⟨⟩, h⟩ := bind_eq_ok.mp h
    obtain ⟨found, hfound, h⟩ := bind_eq_ok.mp h
    have hnames : entry.names = relative.names := by
      rw [ZipEntry.names, henclosed]
      rfl
    rw [hnames, ← entryDestination_ok hfound]
    cases found with
    | none =>
      cases h
      rfl
    | some destination =>
      dsimp only at h
      split_ifs at h
      cases h
      rfl

theorem zipChecks_error {into : Path} {entry : ZipEntry} {error : PackageError}
    (h : zipChecks into entry = .error error) : error = .unsafeArchiveEntry entry.name := by
  rw [zipChecks] at h
  cases henclosed : entry.enclosedName with
  | none =>
    rw [henclosed] at h
    cases h
    rfl
  | some relative =>
    rw [henclosed] at h
    rcases bind_eq_error.mp h with h | ⟨_, ⟨⟩, h⟩
    · cases h
    rcases bind_eq_error.mp h with h | ⟨found, _, h⟩
    · exact entryDestination_error h
    · cases found with
      | none => cases h
      | some destination =>
        dsimp only at h
        split_ifs at h
        · cases h
          rfl
        · cases h

theorem refusesUnsafe (into : Path) (archive : Archive) : archive.RefusesUnsafe into := by
  cases archive with
  | unreadable => trivial
  | zip entries => exact fun _ _ _ h ↦ zipChecks_error h
  | tarGz entries => exact fun _ _ _ hreadable h ↦ tarChecks_error hreadable h

end RunnerManager.Agent.Package
