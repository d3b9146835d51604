import Mathlib.Data.List.Basic

/-!
# Walks in a file tree

Directories, files and symbolic links, and how an operating system reads a path in them: one
component at a time, a link replaced by its target before the next component is read. Read
`Walk` and `Walk.unique` first. A walk that meets a directory it may not search, or that never
leaves a circle of links, has no answer.

`Placed` is where a path leads whoever asks, and `Inspected` what an account learns when it
resolves the part of the path that is there and takes the missing names as written;
`Inspected.placed` says that it learns the truth.
-/

namespace RunnerManager.FileTree

variable {Name : Type}

/-- One component of a path. -/
inductive Component (Name : Type) where
  | parent
  | normal (name : Name)
deriving DecidableEq

/-- What stands at a place. A link's target is read from a fixed place or from the directory the
link stands in. -/
inductive Node (Name : Type) where
  | directory
  | file
  | link (start : Option (List Name)) (target : List (Component Name))
deriving DecidableEq

/-- A tree: what stands where, which directories may be searched, and where a volume starts. -/
structure Tree (Name : Type) where
  node : List Name → Option (Node Name)
  searchable : List Name → Bool
  top : List Name → Bool

namespace Tree

/-- The directory above a place; nothing is above a volume. -/
def above (t : Tree Name) (place : List Name) : List Name :=
  if t.top place then place else place.dropLast

/-- The place is a directory whose entries can be looked up. -/
structure Opens (t : Tree Name) (place : List Name) : Prop where
  directory : t.node place = some .directory
  searchable : t.searchable place = true

/-- The same tree for an account that may search everything. -/
def unlocked (t : Tree Name) : Tree Name :=
  { t with searchable := fun _ ↦ true }

/-- Links start from directories, and above a directory is a directory. -/
structure Grounded (t : Tree Name) : Prop where
  above : ∀ place, t.node place = some .directory → t.node (t.above place) = some .directory
  start : ∀ place start target, t.node place = some (.link (some start) target) →
    t.node start = some .directory

@[simp] theorem unlocked_node (t : Tree Name) : t.unlocked.node = t.node := rfl

@[simp] theorem unlocked_above (t : Tree Name) : t.unlocked.above = t.above := rfl

theorem Opens.unlocked {t : Tree Name} {place : List Name} (h : t.Opens place) :
    t.unlocked.Opens place :=
  ⟨h.directory, rfl⟩

end Tree

/-- How a walk ends: at a place, or where the next component has nothing to name. -/
inductive Answer (Name : Type) where
  | found (place : List Name)
  | absent (place : List Name) (rest : List (Component Name))

/-- The walk along the components of a path. With `follow` a link at the very end is followed as
well. -/
inductive Walk (t : Tree Name) (follow : Bool) :
    List Name → List (Component Name) → Answer Name → Prop
  | done (place : List Name) : Walk t follow place [] (.found place)
  | notDirectory {place : List Name} {component : Component Name}
      {rest : List (Component Name)} (hnode : t.node place = some .file) :
      Walk t follow place (component :: rest) (.absent place (component :: rest))
  | up {place : List Name} {rest : List (Component Name)} {answer : Answer Name}
      (hopens : t.Opens place) (hrest : Walk t follow (t.above place) rest answer) :
      Walk t follow place (.parent :: rest) answer
  | missing {place : List Name} {name : Name} {rest : List (Component Name)}
      (hopens : t.Opens place) (hnode : t.node (place ++ [name]) = none) :
      Walk t follow place (.normal name :: rest) (.absent place (.normal name :: rest))
  | directory {place : List Name} {name : Name} {rest : List (Component Name)}
      {answer : Answer Name} (hopens : t.Opens place)
      (hnode : t.node (place ++ [name]) = some .directory)
      (hrest : Walk t follow (place ++ [name]) rest answer) :
      Walk t follow place (.normal name :: rest) answer
  | file {place : List Name} {name : Name} {rest : List (Component Name)}
      {answer : Answer Name} (hopens : t.Opens place)
      (hnode : t.node (place ++ [name]) = some .file)
      (hrest : Walk t follow (place ++ [name]) rest answer) :
      Walk t follow place (.normal name :: rest) answer
  | followed {place : List Name} {name : Name} {rest : List (Component Name)}
      {start : Option (List Name)} {target : List (Component Name)} {answer : Answer Name}
      (hopens : t.Opens place) (hnode : t.node (place ++ [name]) = some (.link start target))
      (hfollow : follow = true ∨ rest ≠ [])
      (hrest : Walk t follow (start.getD place) (target ++ rest) answer) :
      Walk t follow place (.normal name :: rest) answer
  | link {place : List Name} {name : Name} {start : Option (List Name)}
      {target : List (Component Name)} (hopens : t.Opens place)
      (hnode : t.node (place ++ [name]) = some (.link start target)) (hfollow : follow = false) :
      Walk t follow place [.normal name] (.found (place ++ [name]))

variable {t : Tree Name} {follow : Bool} {place start : List Name}
  {steps rest : List (Component Name)} {answer : Answer Name}

namespace Walk

theorem searched {component : Component Name}
    (h : Walk t follow place (component :: rest) answer) :
    t.node place = some .file ∨ t.Opens place := by
  cases h with
  | notDirectory hnode => exact .inl hnode
  | up hopens | missing hopens | directory hopens | file hopens | followed hopens
  | link hopens => exact .inr hopens

theorem up_inv (hopens : t.Opens place) (h : Walk t follow place (.parent :: rest) answer) :
    Walk t follow (t.above place) rest answer := by
  cases h with
  | notDirectory hfile => simp [hopens.directory] at hfile
  | up _ hrest => exact hrest

theorem missing_inv {name : Name} (hopens : t.Opens place) (hnode : t.node (place ++ [name]) = none)
    (h : Walk t follow place (.normal name :: rest) answer) :
    answer = .absent place (.normal name :: rest) := by
  cases h with
  | notDirectory hfile => simp [hopens.directory] at hfile
  | missing => rfl
  | directory _ h | file _ h | followed _ h | link _ h => simp [hnode] at h

theorem directory_inv {name : Name} (hopens : t.Opens place)
    (hnode : t.node (place ++ [name]) = some .directory)
    (h : Walk t follow place (.normal name :: rest) answer) :
    Walk t follow (place ++ [name]) rest answer := by
  cases h with
  | notDirectory hfile => simp [hopens.directory] at hfile
  | directory _ _ hrest => exact hrest
  | missing _ h | file _ h | followed _ h | link _ h => simp [hnode] at h

theorem file_inv {name : Name} (hopens : t.Opens place)
    (hnode : t.node (place ++ [name]) = some .file)
    (h : Walk t follow place (.normal name :: rest) answer) :
    Walk t follow (place ++ [name]) rest answer := by
  cases h with
  | notDirectory hfile => simp [hopens.directory] at hfile
  | file _ _ hrest => exact hrest
  | missing _ h | directory _ h | followed _ h | link _ h => simp [hnode] at h

theorem link_inv {name : Name} {base : Option (List Name)} {target : List (Component Name)}
    (hopens : t.Opens place) (hnode : t.node (place ++ [name]) = some (.link base target))
    (hfollow : follow = true ∨ rest ≠ [])
    (h : Walk t follow place (.normal name :: rest) answer) :
    Walk t follow (base.getD place) (target ++ rest) answer := by
  cases h with
  | notDirectory hfile => simp [hopens.directory] at hfile
  | followed _ h _ hrest =>
    rw [hnode] at h
    cases h
    exact hrest
  | missing _ h | directory _ h | file _ h => simp [hnode] at h
  | link _ _ hnot => simp [hnot] at hfollow

theorem unique (h : Walk t follow place steps answer) {other : Answer Name}
    (hother : Walk t follow place steps other) : answer = other := by
  induction h with
  | done place =>
    cases hother
    rfl
  | notDirectory hnode =>
    cases hother <;> first | rfl | simp_all [Tree.Opens.directory]
  | up hopens _ ih => exact ih (up_inv hopens hother)
  | missing hopens hnode => exact (missing_inv hopens hnode hother).symm
  | directory hopens hnode _ ih => exact ih (directory_inv hopens hnode hother)
  | file hopens hnode _ ih => exact ih (file_inv hopens hnode hother)
  | followed hopens hnode hfollow _ ih => exact ih (link_inv hopens hnode hfollow hother)
  | link hopens hnode hfollow =>
    cases hother with
    | notDirectory hfile => simp [hopens.directory] at hfile
    | link => rfl
    | missing _ h | directory _ h | file _ h => simp [hnode] at h
    | followed _ _ hnot => simp [hfollow] at hnot

theorem append {middle : List Name} (h : Walk t true start steps (.found middle))
    (hrest : Walk t follow middle rest answer) (hmore : follow = true ∨ rest ≠ []) :
    Walk t follow start (steps ++ rest) answer := by
  generalize hfound : Answer.found middle = result at h
  induction h with
  | done place =>
    cases hfound
    exact hrest
  | notDirectory | missing => cases hfound
  | up hopens _ ih => exact .up hopens (ih hfound)
  | directory hopens hnode _ ih => exact .directory hopens hnode (ih hfound)
  | file hopens hnode _ ih => exact .file hopens hnode (ih hfound)
  | followed hopens hnode _ _ ih =>
    refine .followed hopens hnode ?_ (by simpa using ih hfound)
    exact hmore.imp_right fun hne ↦ by simp [hne]
  | link _ _ hfollow => cases hfollow

theorem suffix {middle : List Name} (h : Walk t true start steps (.found middle))
    (hall : Walk t follow start (steps ++ rest) answer) (hmore : rest ≠ []) :
    Walk t follow middle rest answer := by
  generalize hfound : Answer.found middle = result at h
  induction h with
  | done place =>
    cases hfound
    exact hall
  | notDirectory | missing => cases hfound
  | up hopens _ ih => exact ih (up_inv hopens hall) hfound
  | directory hopens hnode _ ih => exact ih (directory_inv hopens hnode hall) hfound
  | file hopens hnode _ ih => exact ih (file_inv hopens hnode hall) hfound
  | followed hopens hnode _ _ ih =>
    refine ih ?_ hfound
    rw [List.append_assoc]
    exact link_inv hopens hnode (.inr (by simp [hmore])) hall
  | link _ _ hfollow => cases hfollow

theorem absent_inv {missing : List Name} (h : Walk t follow start steps (.absent missing rest)) :
    t.node missing = some .file ∨ ∃ name more, rest = .normal name :: more ∧ t.Opens missing ∧
      t.node (missing ++ [name]) = none := by
  generalize habsent : Answer.absent missing rest = result at h
  induction h with
  | done | link => cases habsent
  | notDirectory hnode =>
    cases habsent
    exact .inl hnode
  | missing hopens hnode =>
    cases habsent
    exact .inr ⟨_, _, rfl, hopens, hnode⟩
  | up _ _ ih | directory _ _ _ ih | file _ _ _ ih | followed _ _ _ _ ih => exact ih habsent

theorem absent_first {name : Name} {more : List (Component Name)}
    (h : Walk t follow place (.normal name :: rest) (.absent place (.normal name :: rest)))
    (follow' : Bool) :
    Walk t follow' place (.normal name :: more) (.absent place (.normal name :: more)) := by
  rcases h.absent_inv with hfile | ⟨_, _, heq, hopens, hnode⟩
  · exact .notDirectory hfile
  · cases heq
    exact .missing hopens hnode

theorem absent_single {name : Name} {found : List Name} {more : List (Component Name)}
    (h : Walk t false place [.normal name] (.absent found more)) (follow : Bool)
    (rest : List (Component Name)) :
    Walk t follow place (.normal name :: rest) (.absent place (.normal name :: rest)) := by
  cases h with
  | notDirectory hnode => exact .notDirectory hnode
  | missing hopens hnode => exact .missing hopens hnode
  | directory _ _ hrest | file _ _ hrest => cases hrest
  | followed _ _ hfollow => simp at hfollow

/-- What is reached with its last link followed has an entry of its own. -/
theorem entry {found : List Name} (h : Walk t true start steps (.found found)) :
    ∃ place, Walk t false start steps (.found place) := by
  generalize hfound : Answer.found found = result at h
  induction h with
  | done place => exact ⟨place, .done place⟩
  | notDirectory | missing => cases hfound
  | up hopens _ ih =>
    obtain ⟨place, hplace⟩ := ih hfound
    exact ⟨place, .up hopens hplace⟩
  | directory hopens hnode _ ih =>
    obtain ⟨place, hplace⟩ := ih hfound
    exact ⟨place, .directory hopens hnode hplace⟩
  | file hopens hnode _ ih =>
    obtain ⟨place, hplace⟩ := ih hfound
    exact ⟨place, .file hopens hnode hplace⟩
  | @followed place name rest _ _ _ hopens hnode _ _ ih =>
    by_cases hrest : rest = []
    · subst hrest
      exact ⟨_, .link hopens hnode rfl⟩
    · obtain ⟨place, hplace⟩ := ih hfound
      exact ⟨place, .followed hopens hnode (.inr hrest) hplace⟩
  | link _ _ hfollow => cases hfollow

theorem found_node {found : List Name} (hground : t.Grounded) (hstart : t.node start ≠ none)
    (h : Walk t follow start steps (.found found)) : ∃ node, t.node found = some node := by
  generalize hfound : Answer.found found = result at h
  induction h with
  | done place =>
    cases hfound
    exact Option.ne_none_iff_exists'.mp hstart
  | notDirectory | missing => cases hfound
  | up hopens _ ih => exact ih (by simp [hground.above _ hopens.directory]) hfound
  | directory _ hnode _ ih | file _ hnode _ ih => exact ih (by simp [hnode]) hfound
  | @followed place _ _ base _ _ hopens hnode _ _ ih =>
    refine ih ?_ hfound
    cases base with
    | none => simp [hopens.directory]
    | some base => simp [hground.start _ base _ hnode]
  | link _ hnode =>
    cases hfound
    exact ⟨_, hnode⟩

theorem unlocked (h : Walk t follow start steps answer) :
    Walk t.unlocked follow start steps answer := by
  induction h with
  | done place => exact .done place
  | notDirectory hnode => exact .notDirectory hnode
  | up hopens _ ih => exact .up hopens.unlocked ih
  | missing hopens hnode => exact .missing hopens.unlocked hnode
  | directory hopens hnode _ ih => exact .directory hopens.unlocked hnode ih
  | file hopens hnode _ ih => exact .file hopens.unlocked hnode ih
  | followed hopens hnode hfollow _ ih => exact .followed hopens.unlocked hnode hfollow ih
  | link hopens hnode hfollow => exact .link hopens.unlocked hnode hfollow

theorem following {found : List Name} (h : Walk t false start steps (.found found))
    (hnode : ∀ base target, t.node found ≠ some (.link base target)) :
    Walk t true start steps (.found found) := by
  generalize hfound : Answer.found found = result at h
  induction h with
  | done place => exact .done place
  | notDirectory | missing => cases hfound
  | up hopens _ ih => exact .up hopens (ih hfound)
  | directory hopens h _ ih => exact .directory hopens h (ih hfound)
  | file hopens h _ ih => exact .file hopens h (ih hfound)
  | followed hopens h _ _ ih => exact .followed hopens h (.inl rfl) (ih hfound)
  | link _ h =>
    cases hfound
    exact absurd h (hnode _ _)

end Walk

/-! ## Where a path leads -/

/-- The place a path leads to, whoever asks. Names below the last entry that is there are places
as well: it is where they would be created. -/
def Placed (t : Tree Name) (start : List Name) (steps : List (Component Name))
    (place : List Name) : Prop :=
  Walk t.unlocked true start steps (.found place) ∨
    ∃ deepest names, Walk t.unlocked true start steps (.absent deepest (names.map .normal)) ∧
      place = deepest ++ names

/-- An account reaches the front of a path, and finds that the first of the names behind it is
not there. -/
def Inspected (t : Tree Name) (start : List Name) (front : List (Component Name))
    (names place : List Name) : Prop :=
  ∃ deepest, Walk t true start front (.found deepest) ∧ place = deepest ++ names ∧
    (names = [] ∨ Walk t true deepest (names.map .normal)
      (.absent deepest (names.map .normal)))

/-- What an account learns is where the path leads. -/
theorem Inspected.placed {names : List Name} (h : Inspected t start steps names place) :
    Placed t start (steps ++ names.map .normal) place := by
  obtain ⟨deepest, hfront, rfl, rfl | hmissing⟩ := h
  · exact .inl (by simpa using hfront.unlocked)
  · exact .inr ⟨deepest, names, (hfront.append hmissing (.inl rfl)).unlocked, rfl⟩

/-! ## Walks beneath a root -/

/-- The place an answer was given at. -/
def Answer.reached : Answer Name → List Name
  | found place => place
  | absent place _ => place

/-- A path read from a place beneath a root: it never climbs above the root, and it reads no `..`
behind the name of one of the links. Places are relative to the root. -/
def Tame (links : List Name → Prop) : List Name → List (Component Name) → Prop
  | _, [] => True
  | place, .parent :: rest => place ≠ [] ∧ Tame links place.dropLast rest
  | place, .normal name :: rest =>
    (links (place ++ [name]) → .parent ∉ rest) ∧ Tame links (place ++ [name]) rest

/-- A path that never climbs above the root and names none of the links. -/
def Avoids (links : List Name → Prop) : List Name → List (Component Name) → Prop
  | _, [] => True
  | place, .parent :: rest => place ≠ [] ∧ Avoids links place.dropLast rest
  | place, .normal name :: rest => ¬ links (place ++ [name]) ∧ Avoids links (place ++ [name]) rest

/-- Where a path leads as it is written. -/
def written : List Name → List (Component Name) → List Name
  | place, [] => place
  | place, .parent :: rest => written place.dropLast rest
  | place, .normal name :: rest => written (place ++ [name]) rest

/-- Every link beneath the root is one of the links, and is read tamely from where it stands; no
volume starts beneath the root. -/
structure Tree.Confined (t : Tree Name) (root : List Name) (links : List Name → Prop) : Prop where
  link : ∀ place start target, t.node (root ++ place) = some (.link start target) →
    links place ∧ start = none ∧ Tame links place.dropLast target
  top : ∀ place, place ≠ [] → t.top (root ++ place) = false

section Beneath

variable {root : List Name} {links : List Name → Prop}

theorem Tame.of_names (names : List Name) : Tame links place (names.map .normal) := by
  induction names generalizing place with
  | nil => trivial
  | cons name names ih => exact ⟨fun _ ↦ by simp, ih⟩

theorem Tame.append (h : Tame links place steps) (hrest : .parent ∉ rest) :
    Tame links place (steps ++ rest) := by
  induction steps generalizing place with
  | nil =>
    clear h
    induction rest generalizing place with
    | nil => trivial
    | cons component rest ih =>
      rw [List.mem_cons, not_or] at hrest
      cases component with
      | parent => exact absurd rfl hrest.1
      | normal name => exact ⟨fun _ ↦ hrest.2, ih hrest.2⟩
  | cons component steps ih =>
    cases component with
    | parent => exact ⟨h.1, ih h.2⟩
    | normal name =>
      refine ⟨fun hlink hmem ↦ ?_, ih h.2⟩
      rcases List.mem_append.mp hmem with hmem | hmem
      · exact h.1 hlink hmem
      · exact hrest hmem

theorem Avoids.tame (h : Avoids links place steps) : Tame links place steps := by
  induction steps generalizing place with
  | nil => trivial
  | cons component steps ih =>
    cases component with
    | parent => exact ⟨h.1, ih h.2⟩
    | normal name => exact ⟨fun hlink ↦ absurd hlink h.1, ih h.2⟩

theorem written_names (place names : List Name) :
    written place (names.map .normal) = place ++ names := by
  induction names generalizing place with
  | nil => simp [written]
  | cons name names ih => simp [written, ih]

theorem avoids_names {names : List Name} : Avoids links place (names.map .normal) ↔
    ∀ way, way ≠ [] → way <+: names → ¬ links (place ++ way) := by
  induction names generalizing place with
  | nil =>
    refine iff_of_true trivial fun way hway hnil ↦ ?_
    exact absurd (List.prefix_nil.mp hnil) hway
  | cons name names ih =>
    rw [List.map_cons, Avoids, ih]
    constructor
    · rintro ⟨hfirst, hrest⟩ way hway hle
      obtain ⟨more, rfl, hmore⟩ := (List.prefix_cons_iff.mp hle).resolve_left hway
      by_cases hempty : more = []
      · simpa [hempty] using hfirst
      · simpa using hrest more hempty hmore
    · intro h
      refine ⟨h [name] (by simp) (by simp), fun way hway hle ↦ ?_⟩
      simpa using h (name :: way) (by simp) (by simpa using hle)

theorem Avoids.clear (h : Avoids links place steps)
    (habove : ∀ way, way <+: place → ¬ links way) :
    ∀ way, way <+: written place steps → ¬ links way := by
  induction steps generalizing place with
  | nil => exact habove
  | cons component steps ih =>
    cases component with
    | parent =>
      exact ih h.2 fun way hway ↦ habove way (hway.trans (List.dropLast_prefix place))
    | normal name =>
      refine ih h.2 fun way hway ↦ ?_
      rcases List.prefix_concat_iff.mp hway with rfl | hway
      · exact h.1
      · exact habove way hway

theorem Tame.mono {fewer : List Name → Prop} (hfewer : ∀ way, fewer way → links way)
    (h : Tame links place steps) : Tame fewer place steps := by
  induction steps generalizing place with
  | nil => trivial
  | cons component steps ih =>
    cases component with
    | parent => exact ⟨h.1, ih h.2⟩
    | normal name => exact ⟨fun hlink ↦ h.1 (hfewer _ hlink), ih h.2⟩

theorem Tree.Confined.restrict {t : Tree Name} {fewer : List Name → Prop}
    (h : t.Confined root links) (hfewer : ∀ way, fewer way → links way)
    (hkept : ∀ way base target, t.node (root ++ way) = some (.link base target) → links way →
      fewer way) : t.Confined root fewer := by
  refine ⟨fun way base target hnode ↦ ?_, h.top⟩
  obtain ⟨hlink, hbase, htarget⟩ := h.link way base target hnode
  exact ⟨hkept way base target hnode hlink, hbase, htarget.mono hfewer⟩

variable {t : Tree Name} (hconfined : t.Confined root links)

include hconfined

theorem Tree.Confined.above (hplace : place ≠ []) :
    t.above (root ++ place) = root ++ place.dropLast := by
  rw [Tree.above, hconfined.top place hplace, if_neg Bool.false_ne_true,
    List.dropLast_append_of_ne_nil hplace]

/-- A tame path is read without leaving the root, whatever links it meets. -/
theorem Walk.beneath (h : Walk t follow (root ++ place) steps answer)
    (htame : Tame links place steps) : root <+: answer.reached := by
  generalize hstart : root ++ place = start at h
  induction h generalizing place with
  | done start => exact hstart ▸ List.prefix_append root place
  | notDirectory _ | missing _ _ => exact hstart ▸ List.prefix_append root place
  | up _ _ ih =>
    subst hstart
    exact ih htame.2 (hconfined.above htame.1).symm
  | directory _ _ _ ih | file _ _ _ ih =>
    subst hstart
    exact ih htame.2 (List.append_assoc ..).symm
  | @followed _ name _ start target _ _ hnode _ _ ih =>
    subst hstart
    rw [List.append_assoc] at hnode
    obtain ⟨hlink, rfl, htarget⟩ := hconfined.link _ _ _ hnode
    rw [List.dropLast_concat] at htarget
    exact ih (htarget.append (htame.1 hlink)) rfl
  | link _ _ _ =>
    subst hstart
    exact ⟨_, (List.append_assoc ..).symm⟩

theorem Walk.leads (h : Walk t follow (root ++ place) steps (.found found))
    (havoids : Avoids links place steps) : found = root ++ written place steps := by
  generalize hstart : root ++ place = start at h
  generalize hfound : Answer.found found = answer at h
  induction h generalizing place with
  | done start =>
    cases hfound
    exact hstart.symm
  | notDirectory _ | missing _ _ => cases hfound
  | up _ _ ih =>
    subst hstart
    exact ih havoids.2 (hconfined.above havoids.1).symm hfound
  | directory _ _ _ ih | file _ _ _ ih =>
    subst hstart
    exact ih havoids.2 (List.append_assoc ..).symm hfound
  | followed _ hnode | link _ hnode =>
    subst hstart
    rw [List.append_assoc] at hnode
    exact absurd (hconfined.link _ _ _ hnode).1 havoids.1

end Beneath

end RunnerManager.FileTree
