import RunnerManager.Domain.PathSpelling
import RunnerManager.Lib.FileTree
import RunnerManager.Platform.RunnerRoot

/-!
# What an accepted root is worth

The preflight and the containment check of `crates/platform/src/runner_root.rs` over a file tree
with links. Read `accepted_root_sound` first. `Mirrors` says that the operating system answers
from the tree; `Located` is where a path leads whoever asks, and `Readable` that this account
can find out. A directory that is not readable is compared as it is written and no further.
-/

namespace RunnerManager.Platform

open RunnerManager.Domain RunnerManager.Result RunnerManager.FileTree

/-! ## Containment -/

def verifyContainment (machine : Machine) (root child : LocalAbsolutePath) :
    Except RunnerRootError Unit := do
  [root, child].forM fun value ↦
    if value.platform ≠ machine.native then .error (.foreignPlatform value.text value.platform)
    else .ok ()
  if overlapOf machine.toLowercase child.text root.text root.platform ≠ .inside then
    .error (.escapes root.text child.text child.text)
  else do
    let rootProjection ← project machine.fs machine.native root.text
    let childProjection ← project machine.fs machine.native child.text
    if overlapOf machine.toLowercase childProjection.canonical rootProjection.canonical
        root.platform ≠ .inside then
      .error (.escapes root.text child.text childProjection.canonical)
    else return ()

/-! ## Overlap is a comparison of prefixes -/

section Overlap

variable {toLowercase : Char → List Char} {platform : PathPlatform} {a b c : String}

theorem overlapOf_eq (h : ¬ overlapOf toLowercase a b platform = .disjoint) :
    overlapOf toLowercase a b platform =
      match compare (pathKey toLowercase platform a).length
          (pathKey toLowercase platform b).length with
      | .eq => .same
      | .gt => .inside
      | .lt => .contains := by
  simp only [overlapOf, relationOf, pathKey, List.length_map] at h ⊢
  split_ifs at h ⊢ with hshared
  · exact absurd rfl h
  · rfl

theorem prefix_of_not_disjoint (h : ¬ overlapOf toLowercase a b platform = .disjoint) :
    pathKey toLowercase platform a <+: pathKey toLowercase platform b ∨
      pathKey toLowercase platform b <+: pathKey toLowercase platform a := by
  rw [overlapOf_disjoint_iff] at h
  tauto

theorem overlapOf_inside_iff : overlapOf toLowercase a b platform = .inside ↔
    pathKey toLowercase platform b <+: pathKey toLowercase platform a ∧
      pathKey toLowercase platform b ≠ pathKey toLowercase platform a := by
  constructor
  · intro h
    have hnot : ¬ overlapOf toLowercase a b platform = .disjoint := by simp [h]
    have hlength := overlapOf_eq hnot
    rw [h] at hlength
    split at hlength <;> try cases hlength
    next hgt =>
      rw [Nat.compare_eq_gt] at hgt
      rcases prefix_of_not_disjoint hnot with hfront | hfront
      · exact absurd hfront.length_le (by omega)
      · exact ⟨hfront, fun heq ↦ by simp [heq] at hgt⟩
  · rintro ⟨hfront, hne⟩
    have hnot : ¬ overlapOf toLowercase a b platform = .disjoint := by
      rw [overlapOf_disjoint_iff]
      exact fun h ↦ h.2 hfront
    have hlt := lt_of_le_of_ne hfront.length_le fun heq ↦ hne (hfront.eq_of_length heq)
    rw [overlapOf_eq hnot, Nat.compare_eq_gt.mpr hlt]

theorem overlapOf_same_iff : overlapOf toLowercase a b platform = .same ↔
    pathKey toLowercase platform a = pathKey toLowercase platform b := by
  constructor
  · intro h
    have hnot : ¬ overlapOf toLowercase a b platform = .disjoint := by simp [h]
    have hlength := overlapOf_eq hnot
    rw [h] at hlength
    split at hlength <;> try cases hlength
    next heq =>
      rw [Nat.compare_eq_eq] at heq
      rcases prefix_of_not_disjoint hnot with hfront | hfront
      · exact hfront.eq_of_length heq
      · exact (hfront.eq_of_length heq.symm).symm
  · intro h
    have hnot : ¬ overlapOf toLowercase a b platform = .disjoint := by
      rw [overlapOf_disjoint_iff, h]
      exact fun hapart ↦ hapart.1 List.prefix_rfl
    rw [overlapOf_eq hnot, h, Nat.compare_eq_eq.mpr rfl]

theorem overlapOf_contains_iff : overlapOf toLowercase a b platform = .contains ↔
    overlapOf toLowercase b a platform = .inside := by
  rw [overlapOf_inside_iff]
  constructor
  · intro h
    have hnot : ¬ overlapOf toLowercase a b platform = .disjoint := by simp [h]
    have hlength := overlapOf_eq hnot
    rw [h] at hlength
    split at hlength <;> try cases hlength
    next hlt =>
      rw [Nat.compare_eq_lt] at hlt
      rcases prefix_of_not_disjoint hnot with hfront | hfront
      · exact ⟨hfront, fun heq ↦ by simp [heq] at hlt⟩
      · exact absurd hfront.length_le (by omega)
  · rintro ⟨hfront, hne⟩
    have hnot : ¬ overlapOf toLowercase a b platform = .disjoint := by
      rw [overlapOf_disjoint_iff]
      exact fun h ↦ h.1 hfront
    have hlt := lt_of_le_of_ne hfront.length_le fun heq ↦ hne (hfront.eq_of_length heq)
    rw [overlapOf_eq hnot, Nat.compare_eq_lt.mpr hlt]

theorem overlapOf_inside_trans (hab : overlapOf toLowercase a b platform = .inside)
    (hbc : overlapOf toLowercase b c platform = .inside) :
    overlapOf toLowercase a c platform = .inside := by
  rw [overlapOf_inside_iff] at hab hbc ⊢
  refine ⟨hbc.1.trans hab.1, fun heq ↦ hab.2 (hab.1.eq_of_length_le ?_)⟩
  rw [← heq]
  exact hbc.1.length_le

end Overlap

/-! ## Paths as walks -/

section Paths

variable (toLowercase : Char → List Char) (platform : PathPlatform)

/-- A relative path whose meaning is the working directory's alone: on Windows neither a drive's
own directory nor a share. -/
def isRelative (path : String) : Bool :=
  match componentsOf path platform with
  | [] => false
  | first :: rest =>
    !path.toList.head?.any platform.isSeparator
      && (platform = .unix || !first.contains ':' && !(first :: rest).contains ['.', '.'])

/-- Where the walk along a path starts, and how many of its components `project` never takes
away: a volume's root stays, an empty relative path has no answer. -/
def startOf (cwd : List (List Char)) (path : String) : Option (List (List Char) × Nat) :=
  match pathPrefix platform path.toList with
  | .ok (root, _) => some (pathKey toLowercase platform (String.ofList root), 0)
  | .error _ => if isRelative platform path then some (cwd, 1) else none

/-- The walk along components. Unix goes up from wherever a link led; Windows drops a component
and the `..` behind it before it looks at anything. -/
def stepsOf (components : List (List Char)) : List (Component (List Char)) :=
  match platform with
  | .unix => components.map fun component ↦
      if component = ['.', '.'] then .parent else .normal component
  | .windows =>
    (components.foldl (fun kept component ↦
      if component = ['.', '.'] then kept.dropLast else kept ++ [component]) []).map fun
        component ↦ .normal (nameKey toLowercase .windows component)

def pathSteps (path : String) : List (Component (List Char)) :=
  stepsOf toLowercase platform (splitPath platform path).2

variable {toLowercase platform}

theorem stepsOf_append {front names : List (List Char)} (h : ∀ name ∈ names, name ≠ ['.', '.']) :
    stepsOf toLowercase platform (front ++ names) =
      stepsOf toLowercase platform front ++
        (names.map (nameKey toLowercase platform)).map .normal := by
  cases platform with
  | unix =>
    simp only [stepsOf, List.map_append, List.append_cancel_left_eq, List.map_map]
    refine List.map_congr_left fun name hname ↦ ?_
    simp [h name hname, nameKey]
  | windows =>
    have hfold : ∀ kept : List (List Char),
        names.foldl (fun kept component ↦
          if component = ['.', '.'] then kept.dropLast else kept ++ [component]) kept =
          kept ++ names := by
      induction names with
      | nil => simp
      | cons name names ih =>
        intro kept
        rw [List.forall_mem_cons] at h
        rw [List.foldl_cons, if_neg h.1, ih h.2, List.append_assoc, List.singleton_append]
    simp [stepsOf, List.foldl_append, hfold, Function.comp_def]

/-- A component a path can be written with. -/
structure Writable (platform : PathPlatform) (component : List Char) : Prop where
  nonempty : component ≠ []
  notHere : component ≠ ['.']
  noSeparator : ∀ c ∈ component, platform.isSeparator c = false

theorem clean_componentsOf (path : String) :
    ∀ component ∈ componentsOf path platform, Writable platform component := by
  intro component hcomponent
  simp only [componentsOf, List.mem_filter, Bool.and_eq_true, decide_eq_true_eq] at hcomponent
  obtain ⟨hmem, hnonempty, hhere⟩ := hcomponent
  exact ⟨hnonempty, hhere, Text.splitOnP_parts _ component hmem⟩

theorem componentsOf_separator (before after : List Char) {separator : Char}
    (h : platform.isSeparator separator = true) :
    componentsOf (String.ofList (before ++ separator :: after)) platform =
      componentsOf (String.ofList before) platform ++
        componentsOf (String.ofList after) platform := by
  simp [componentsOf, List.splitOnP_append_cons _ _ h]

theorem componentsOf_intercalate {components : List (List Char)}
    (h : ∀ component ∈ components, Writable platform component) :
    componentsOf (String.ofList ([platform.separator].intercalate components)) platform =
      components := by
  by_cases hnil : components = []
  · subst hnil
    cases platform <;> rfl
  · have hseparator : platform.isSeparator platform.separator = true := by cases platform <;> rfl
    simp only [componentsOf, String.toList_ofList,
      Text.splitOnP_intercalate hseparator hnil fun part hpart ↦ (h part hpart).noSeparator]
    rw [List.filter_eq_self]
    intro component hcomponent
    simp [(h component hcomponent).nonempty, (h component hcomponent).notHere]

theorem isSeparator_separator : platform.isSeparator platform.separator = true := by
  cases platform <;> rfl

theorem componentsOf_push (path : String) {component : List Char}
    (h : Writable platform component) :
    componentsOf (push platform path component) platform =
      componentsOf path platform ++ [component] := by
  have hone : componentsOf (String.ofList component) platform = [component] := by
    have hread := @componentsOf_intercalate platform [component] (by simpa using h)
    simpa using hread
  rw [push]
  split_ifs with hlast
  · rw [Option.any_eq_true] at hlast
    obtain ⟨last, hlast, hseparator⟩ := hlast
    obtain ⟨before, hpath⟩ := List.getLast?_eq_some_iff.mp hlast
    have htext : path ++ String.ofList component =
        String.ofList (before ++ last :: component) := by
      apply String.toList_inj.mp
      simp [hpath]
    have hwritten : path = String.ofList (before ++ last :: []) := by
      apply String.toList_inj.mp
      simp [hpath]
    rw [htext, componentsOf_separator _ _ hseparator, hone, hwritten,
      componentsOf_separator _ _ hseparator]
    simp [componentsOf]
  · have htext : path ++ String.singleton platform.separator ++ String.ofList component =
        String.ofList (path.toList ++ platform.separator :: component) := by
      apply String.toList_inj.mp
      simp
    rw [htext, componentsOf_separator _ _ isSeparator_separator, hone, String.ofList_toList]

theorem pathKey_foldl_push {components : List (List Char)}
    (h : ∀ component ∈ components, Writable platform component) (path : String) :
    pathKey toLowercase platform (components.foldl (push platform) path) =
      pathKey toLowercase platform path ++ components.map (nameKey toLowercase platform) := by
  induction components generalizing path with
  | nil => simp
  | cons component components ih =>
    rw [List.forall_mem_cons] at h
    rw [List.foldl_cons, ih h.2, pathKey, componentsOf_push path h.1]
    simp [pathKey]

theorem splitPath_of_root {path : String} {root rest : List Char}
    (h : pathPrefix platform path.toList = .ok (root, rest)) :
    splitPath platform path = (root, componentsOf (String.ofList rest) platform) := by
  simp [splitPath, h]

theorem path_prefix_relative {path : String} (h : isRelative platform path = true) :
    ∃ e, pathPrefix platform path.toList = .error e := by
  cases hread : pathPrefix platform path.toList with
  | error e => exact ⟨e, rfl⟩
  | ok split =>
    obtain ⟨root, rest⟩ := split
    obtain ⟨front, separator, hroot, hseparator, htext⟩ := path_prefix_ok_iff.mp hread
    have hpath : path = String.ofList (front ++ separator :: rest) := by
      rw [← htext, String.ofList_toList]
    rw [isRelative] at h
    split at h
    · cases h
    · next first others hcomponents =>
      simp only [Bool.and_eq_true, Bool.not_eq_eq_eq_not, Bool.not_true] at h
      unfold PathPlatform.rootOf at hroot
      split at hroot
      · -- a Unix root is a separator in front
        simp [htext, hseparator] at h
      · next drive =>
        -- a drive is the first component, with its colon
        split_ifs at hroot with hdrive
        have hplain :
            componentsOf (String.ofList [drive, ':']) .windows = [[drive, ':']] := by
          have hparts : [drive, ':'].splitOnP PathPlatform.windows.isSeparator =
              [[drive, ':']] := by
            refine List.splitOnP_eq_singleton fun c hc ↦ ?_
            rcases List.mem_pair.mp hc with rfl | rfl
            · exact (letter_plain hdrive).1
            · rfl
          simp [componentsOf, hparts]
        rw [hpath, componentsOf_separator _ _ hseparator, hplain] at hcomponents
        simp only [List.singleton_append, List.cons.injEq] at hcomponents
        obtain ⟨rfl, -⟩ := hcomponents
        simp at h
      · cases hroot

theorem isRelative_front {path : String} (h : isRelative platform path = true)
    {front names : List (List Char)} (hsplit : componentsOf path platform = front ++ names)
    (hkept : front ≠ []) : isRelative platform (joinPath platform [] front) = true := by
  have hclean : ∀ component ∈ front, Writable platform component := fun component hcomponent ↦
    clean_componentsOf path component (hsplit ▸ List.mem_append_left _ hcomponent)
  obtain ⟨first, others, rfl⟩ := List.exists_cons_of_ne_nil hkept
  have hread : componentsOf (joinPath platform [] (first :: others)) platform =
      first :: others := by
    simpa [joinPath] using componentsOf_intercalate hclean
  have hhead : (joinPath platform [] (first :: others)).toList.head?.any platform.isSeparator =
      false := by
    obtain ⟨hnonempty, -, hfree⟩ := hclean first List.mem_cons_self
    obtain ⟨c, first, rfl⟩ := List.exists_cons_of_ne_nil hnonempty
    cases others <;> simp [joinPath, List.intercalate, List.intersperse, hfree c]
  rw [isRelative, hsplit] at h
  rw [isRelative, hread]
  simp only [List.cons_append, Bool.and_eq_true, Bool.or_eq_true] at h
  simp only [hhead, Bool.not_false, Bool.true_and, Bool.or_eq_true]
  refine h.2.imp id fun hwindows ↦ ?_
  simp only [Bool.and_eq_true, Bool.not_eq_eq_eq_not, Bool.not_true, List.contains_eq_mem,
    decide_eq_false_iff_not] at hwindows ⊢
  refine ⟨hwindows.1, fun hmem ↦ hwindows.2 ?_⟩
  rw [← List.cons_append]
  exact List.mem_append_left _ hmem

theorem front_of_path {path : String} {cwd : List (List Char)} {start : List (List Char) × Nat}
    (hstart : startOf toLowercase platform cwd path = some start)
    {front names : List (List Char)} (hsplit : (splitPath platform path).2 = front ++ names)
    (hkept : start.2 ≤ front.length) :
    startOf toLowercase platform cwd (joinPath platform (splitPath platform path).1 front) =
        some start ∧
      splitPath platform (joinPath platform (splitPath platform path).1 front) =
        ((splitPath platform path).1, front) := by
  have hclean : ∀ component ∈ front, Writable platform component := by
    intro component hcomponent
    have hmem : component ∈ (splitPath platform path).2 := by
      rw [hsplit]
      exact List.mem_append_left _ hcomponent
    rw [splitPath] at hmem
    split at hmem
    · exact clean_componentsOf _ component hmem
    · exact clean_componentsOf _ component hmem
  cases hread : pathPrefix platform path.toList with
  | ok split =>
    obtain ⟨root, rest⟩ := split
    obtain ⟨hagain, -, -⟩ := path_prefix_root hread
    rw [startOf, hread] at hstart
    rw [splitPath_of_root hread]
    have hwritten : pathPrefix platform (joinPath platform root front).toList =
        .ok (root, [platform.separator].intercalate front) := by
      simpa [joinPath] using hagain ([platform.separator].intercalate front)
    rw [startOf, hwritten, splitPath_of_root hwritten, componentsOf_intercalate hclean]
    exact ⟨hstart, rfl⟩
  | error e =>
    rw [startOf, hread] at hstart
    simp only [Option.ite_none_right_eq_some, Option.some.injEq] at hstart
    obtain ⟨hrelative, rfl⟩ := hstart
    have hparts : splitPath platform path = ([], componentsOf path platform) := by
      simp [splitPath, hread]
    rw [hparts] at hsplit ⊢
    simp only at hsplit hkept
    have hnonempty : front ≠ [] := List.ne_nil_of_length_pos (by omega)
    have hagain := isRelative_front hrelative hsplit hnonempty
    obtain ⟨e, he⟩ := path_prefix_relative hagain
    rw [startOf, he]
    refine ⟨by simp [hagain], ?_⟩
    rw [splitPath, he]
    simpa [joinPath] using componentsOf_intercalate hclean

end Paths

/-! ## An operating system that answers from a tree -/

/-- What `symlink_metadata` calls a node. -/
def typeOf : Node (List Char) → FileType
  | .directory => .directory
  | .file => .file
  | .link .. => .symlink

section Mirrors

variable (machine : Machine) (cwd : List (List Char))

abbrev Machine.startOf (path : String) : Option (List (List Char) × Nat) :=
  Platform.startOf machine.toLowercase machine.native cwd path

abbrev Machine.stepsOf (path : String) : List (Component (List Char)) :=
  pathSteps machine.toLowercase machine.native path

abbrev Machine.placeOf (text : String) : List (List Char) :=
  pathKey machine.toLowercase machine.native text

/-- Every answer comes from one tree, which stands still. Two names are one entry exactly when
`same_component` says so. -/
structure Mirrors (t : FileTree.Tree (List Char)) : Prop where
  empty : ∃ e, machine.fs.symlinkMetadata "" = .error e ∧ e.meansAbsent = true
  present : ∀ path start place, machine.startOf cwd path = some start →
    Walk t false start.1 (machine.stepsOf path) (.found place) →
    ∃ fileType, machine.fs.symlinkMetadata path = .ok fileType
  metadata : ∀ path start fileType, machine.startOf cwd path = some start →
    machine.fs.symlinkMetadata path = .ok fileType →
    ∃ place, Walk t false start.1 (machine.stepsOf path) (.found place) ∧
      (t.node place).map typeOf = some fileType
  missing : ∀ path start place rest, machine.startOf cwd path = some start →
    Walk t false start.1 (machine.stepsOf path) (.absent place rest) →
    ∃ e, machine.fs.symlinkMetadata path = .error e ∧ e.meansAbsent = true
  absent : ∀ path start e, machine.startOf cwd path = some start →
    machine.fs.symlinkMetadata path = .error e → e.meansAbsent = true →
    ∃ place rest, Walk t false start.1 (machine.stepsOf path) (.absent place rest)
  resolves : ∀ path start place, machine.startOf cwd path = some start →
    Walk t true start.1 (machine.stepsOf path) (.found place) →
    ∃ canonical, machine.fs.canonicalize path = .ok canonical
  canonical : ∀ path start canonical, machine.startOf cwd path = some start →
    machine.fs.canonicalize path = .ok canonical →
    Walk t true start.1 (machine.stepsOf path)
      (.found (machine.placeOf (plain machine.native canonical)))
  volume : ∀ path canonical, machine.fs.canonicalize path = .ok canonical →
    t.top (machine.placeOf (plain machine.native canonical)) = true →
    isFilesystemRoot machine.native (plain machine.native canonical) = true
  isDir : ∀ path canonical, machine.fs.canonicalize path = .ok canonical →
    machine.fs.isDir (plain machine.native canonical) = true →
    t.node (machine.placeOf (plain machine.native canonical)) = some .directory
  volumes : ∀ place, t.top place = true → t.node place = some .directory

/-- Where a path leads, whoever asks. -/
def Located (t : FileTree.Tree (List Char)) (path : String) (place : List (List Char)) : Prop :=
  ∃ start, machine.startOf cwd path = some start ∧
    Placed t start.1 (machine.stepsOf path) place

/-- Where a path leads, as this account finds it: it resolves the part of the path that is
there, and the names behind that part are missing. -/
def Readable (t : FileTree.Tree (List Char)) (path : String) (place : List (List Char)) : Prop :=
  ∃ start front names, machine.startOf cwd path = some start ∧
    (splitPath machine.native path).2 = front ++ names ∧ start.2 ≤ front.length ∧
    (∀ name ∈ names, name ≠ ['.', '.']) ∧
    Inspected t start.1 (stepsOf machine.toLowercase machine.native front)
      (names.map (nameKey machine.toLowercase machine.native)) place

variable {machine cwd} {t : FileTree.Tree (List Char)}

theorem Readable.located {path : String} {place : List (List Char)}
    (h : Readable machine cwd t path place) : Located machine cwd t path place := by
  obtain ⟨start, front, names, hstart, hsplit, -, hnames, hinspected⟩ := h
  refine ⟨start, hstart, ?_⟩
  rw [Machine.stepsOf, pathSteps, hsplit, stepsOf_append hnames]
  exact hinspected.placed

/-- The walk of `project` ends at the longest front of the path whose entry is there; the entry
behind it is missing. -/
theorem deepestExisting_ok {fs : Filesystem} {platform : PathPlatform} {root : List Char}
    {components missing all : List (List Char)} {cursor : String}
    (h : deepestExisting fs platform root components missing = .ok (cursor, all)) :
    ∃ front names, components.reverse = front ++ names ∧ all = names ++ missing ∧
      cursor = joinPath platform root front ∧ (∃ ft, fs.symlinkMetadata cursor = .ok ft) ∧
      (∀ name ∈ names, name ≠ ['.', '.']) ∧
      ∀ name ∈ names.head?, ∃ e,
        fs.symlinkMetadata (joinPath platform root (front ++ [name])) = .error e ∧
          e.meansAbsent = true := by
  induction components generalizing missing with
  | nil =>
    rw [deepestExisting] at h
    split at h
    · next ft hft =>
      cases h
      exact ⟨[], [], rfl, rfl, rfl, ⟨ft, hft⟩, by simp, by simp⟩
    · split_ifs at h
  | cons name parents ih =>
    rw [deepestExisting] at h
    split at h
    · next ft hft =>
      cases h
      exact ⟨(name :: parents).reverse, [], by simp, rfl, rfl, ⟨ft, hft⟩, by simp, by simp⟩
    · next e he =>
      split_ifs at h with habsent
      simp only at h
      split_ifs at h with hparent
      obtain ⟨front, names, hsplit, rfl, hcursor, hmetadata, hnames, hmissing⟩ := ih h
      refine ⟨front, names ++ [name], ?_, by simp, hcursor, hmetadata, ?_, ?_⟩
      · simp [hsplit]
      · simpa [or_imp, forall_and, hparent] using hnames
      · cases names with
        | nil =>
          simp only [List.append_nil] at hsplit
          simpa [← hsplit] using ⟨e, by simpa using he, habsent⟩
        | cons first names => simpa using hmissing

theorem deepestExisting_eq {fs : Filesystem} {platform : PathPlatform} {root : List Char}
    {front names : List (List Char)} (missing : List (List Char))
    (hfront : ∃ ft, fs.symlinkMetadata (joinPath platform root front) = .ok ft)
    (hnames : ∀ name ∈ names, name ≠ ['.', '.'])
    (hmissing : ∀ some' rest, names = some' ++ rest → some' ≠ [] → ∃ e,
      fs.symlinkMetadata (joinPath platform root (front ++ some')) = .error e ∧
        e.meansAbsent = true) :
    deepestExisting fs platform root (names.reverse ++ front.reverse) missing =
      .ok (joinPath platform root front, names ++ missing) := by
  induction names using List.reverseRecOn generalizing missing with
  | nil =>
    obtain ⟨ft, hft⟩ := hfront
    rw [deepestExisting.eq_def]
    simp [hft]
  | append_singleton names name ih =>
    obtain ⟨e, he, habsent⟩ := hmissing (names ++ [name]) [] (by simp) (by simp)
    have hrest := ih (name :: missing) (fun n hn ↦ hnames n (List.mem_append_left _ hn))
      fun some' rest hsplit hne ↦ hmissing some' (rest ++ [name]) (by simp [hsplit]) hne
    have hname : name ≠ ['.', '.'] := hnames name (by simp)
    rw [List.reverse_append, List.reverse_singleton, List.singleton_append, List.cons_append,
      deepestExisting]
    simp [he, habsent, hname, hrest]

/-- What the walk of `project` learns about a path. -/
structure Projects (machine : Machine) (t : FileTree.Tree (List Char)) (start : List (List Char))
    (projection : Projection) (front names : List (List Char)) (deepest : List (List Char)) :
    Prop where
  found : Walk t true start (Platform.stepsOf machine.toLowercase machine.native front)
    (.found deepest)
  missing : names = [] ∨ Walk t true deepest
    ((names.map (nameKey machine.toLowercase machine.native)).map .normal)
    (.absent deepest ((names.map (nameKey machine.toLowercase machine.native)).map .normal))
  count : projection.missing = names.length
  canonical : machine.placeOf projection.canonical =
    deepest ++ names.map (nameKey machine.toLowercase machine.native)
  anchor : machine.placeOf projection.anchor = deepest
  anchored : ∃ canonical, machine.fs.canonicalize projection.anchorAsWritten = .ok canonical ∧
    plain machine.native canonical = projection.anchor ∧
    (names = [] → projection.canonical = projection.anchor)

theorem writable_splitPath {platform : PathPlatform} (path : String) :
    ∀ component ∈ (splitPath platform path).2, Writable platform component := by
  intro component hcomponent
  rw [splitPath] at hcomponent
  split at hcomponent
  · exact clean_componentsOf _ component hcomponent
  · exact clean_componentsOf _ component hcomponent

theorem project_ok {path : String} {start : List (List Char) × Nat} {projection : Projection}
    (hm : Mirrors machine cwd t) (hstart : machine.startOf cwd path = some start)
    (h : project machine.fs machine.native path = .ok projection) :
    ∃ front names deepest, (splitPath machine.native path).2 = front ++ names ∧
      start.2 ≤ front.length ∧ (∀ name ∈ names, name ≠ ['.', '.']) ∧
      Projects machine t start.1 projection front names deepest := by
  simp only [project, bind_eq_ok, mapError_eq_ok, map_eq_ok, pure_eq_ok] at h
  obtain ⟨⟨cursor, missing⟩, hdeepest, anchor, ⟨canonical, hcanonical, hplain⟩, rfl⟩ := h
  obtain ⟨front, names, hsplit, hall, hcursor, ⟨ft, hft⟩, hnames, hmissing⟩ :=
    deepestExisting_ok hdeepest
  rw [List.append_nil] at hall
  rw [List.reverse_reverse] at hsplit
  simp only at hcanonical hall hcursor hft
  subst hall
  -- an empty relative path has no entry
  have hkept : start.2 ≤ front.length := by
    by_contra hlt
    have hrelative : startOf machine.toLowercase machine.native cwd path = some start := hstart
    rw [Platform.startOf] at hrelative
    split at hrelative
    · cases hrelative
      simp at hlt
    · next e he =>
      simp only [Option.ite_none_right_eq_some, Option.some.injEq] at hrelative
      obtain ⟨-, rfl⟩ := hrelative
      have hfront : front = [] := List.eq_nil_of_length_eq_zero (by simpa using hlt)
      have hempty : cursor = "" := by
        rw [hcursor, hfront, splitPath, he]
        cases machine.native <;> rfl
      obtain ⟨e, he, -⟩ := hm.empty
      rw [hempty, he] at hft
      cases hft
  obtain ⟨hfrontStart, hfrontSplit⟩ := front_of_path hstart hsplit hkept
  rw [← hcursor] at hfrontStart hfrontSplit
  have hsteps : machine.stepsOf cursor =
      Platform.stepsOf machine.toLowercase machine.native front := by
    rw [Machine.stepsOf, pathSteps, hfrontSplit]
  have hfound := hm.canonical cursor start canonical hfrontStart hcanonical
  rw [hsteps, hplain] at hfound
  refine ⟨front, missing, _, hsplit, hkept, hnames, hfound, ?_, rfl, ?_, rfl, canonical, hcanonical,
    hplain, fun hnil ↦ by simp [hnil]⟩
  · cases missing with
    | nil => exact .inl rfl
    | cons name others =>
      right
      obtain ⟨e, he, habsent⟩ := hmissing name rfl
      have hlonger : (splitPath machine.native path).2 = (front ++ [name]) ++ others := by
        simp [hsplit]
      obtain ⟨hnextStart, hnextSplit⟩ := front_of_path hstart hlonger (by simp; omega)
      obtain ⟨place, rest, hwalk⟩ := hm.absent _ start e hnextStart he habsent
      rw [Machine.stepsOf, pathSteps, hnextSplit, stepsOf_append
        (by simpa using hnames name List.mem_cons_self)] at hwalk
      exact (hfound.suffix hwalk (by simp)).absent_single _ _
  · refine pathKey_foldl_push (fun component hcomponent ↦ ?_) _
    exact writable_splitPath path component (hsplit ▸ List.mem_append_right _ hcomponent)

theorem metadata_of_found {path : String} {start : List (List Char) × Nat}
    {place : List (List Char)} (hm : Mirrors machine cwd t)
    (hstart : machine.startOf cwd path = some start)
    (h : Walk t true start.1 (machine.stepsOf path) (.found place)) :
    ∃ fileType, machine.fs.symlinkMetadata path = .ok fileType := by
  obtain ⟨entry, hentry⟩ := h.entry
  exact hm.present path start entry hstart hentry

/-- `project` answers for every path this account can read. -/
theorem project_of_readable {path : String} {place : List (List Char)}
    (hm : Mirrors machine cwd t) (h : Readable machine cwd t path place) :
    ∃ projection, project machine.fs machine.native path = .ok projection ∧
      machine.placeOf projection.canonical = place := by
  obtain ⟨start, front, names, hstart, hsplit, hkept, hnames, deepest, hfound, rfl, hmissing⟩ := h
  obtain ⟨hfrontStart, hfrontSplit⟩ := front_of_path hstart hsplit hkept
  have hsteps : machine.stepsOf (joinPath machine.native (splitPath machine.native path).1 front) =
      Platform.stepsOf machine.toLowercase machine.native front := by
    rw [Machine.stepsOf, pathSteps, hfrontSplit]
  rw [← hsteps] at hfound
  have hlonger : ∀ some' rest, names = some' ++ rest → some' ≠ [] → ∃ e,
      machine.fs.symlinkMetadata
          (joinPath machine.native (splitPath machine.native path).1 (front ++ some')) = .error e ∧
        e.meansAbsent = true := by
    intro some' rest hnamed hne
    have hsplit' : (splitPath machine.native path).2 = (front ++ some') ++ rest := by
      rw [hsplit, hnamed, List.append_assoc]
    obtain ⟨hnextStart, hnextSplit⟩ := front_of_path hstart hsplit' (by simp; omega)
    obtain ⟨name, others, rfl⟩ := List.exists_cons_of_ne_nil hne
    subst hnamed
    have habsent := hmissing.resolve_left (by simp)
    have hwalk : Walk t false start.1 (machine.stepsOf (joinPath machine.native
        (splitPath machine.native path).1 (front ++ name :: others)))
        (.absent deepest (((name :: others).map
          (nameKey machine.toLowercase machine.native)).map .normal)) := by
      rw [Machine.stepsOf, pathSteps, hnextSplit,
        stepsOf_append fun n hn ↦ hnames n (List.mem_append_left _ hn)]
      rw [hsteps] at hfound
      exact hfound.append (Walk.absent_first habsent false) (.inr (by simp))
    exact hm.missing _ start deepest _ hnextStart hwalk
  have hdeepest := deepestExisting_eq [] (metadata_of_found hm hfrontStart hfound) hnames hlonger
  obtain ⟨canonical, hcanonical⟩ := hm.resolves _ start deepest hfrontStart hfound
  have hplace := (hm.canonical _ start canonical hfrontStart hcanonical).unique hfound
  rw [Answer.found.injEq] at hplace
  rw [← List.reverse_append, ← hsplit, List.append_nil] at hdeepest
  refine ⟨{ anchor := plain machine.native canonical
            anchorAsWritten := joinPath machine.native (splitPath machine.native path).1 front
            canonical := names.foldl (push machine.native) (plain machine.native canonical)
            missing := names.length }, ?_, ?_⟩
  · simp [project, hdeepest, hcanonical, bind, Except.bind, Except.map, Except.mapError, pure,
      Except.pure]
  rw [← hplace]
  refine pathKey_foldl_push (fun component hcomponent ↦ ?_) _
  exact writable_splitPath path component (hsplit ▸ List.mem_append_right _ hcomponent)

theorem startOf_local (cwd : List (List Char)) {path : LocalAbsolutePath}
    (h : path.platform = machine.native) :
    ∃ start, machine.startOf cwd path.text = some start := by
  obtain ⟨⟨root, rest⟩, hread⟩ := prefix_of_normalise path.canonical
  rw [h] at hread
  exact ⟨_, by rw [Machine.startOf, Platform.startOf, hread]⟩

theorem located_of_project {path : String} {start : List (List Char) × Nat}
    {projection : Projection} (hm : Mirrors machine cwd t)
    (hstart : machine.startOf cwd path = some start)
    (h : project machine.fs machine.native path = .ok projection) :
    Located machine cwd t path (machine.placeOf projection.canonical) := by
  obtain ⟨front, names, deepest, hsplit, hkept, hnames, hproject⟩ := project_ok hm hstart h
  refine Readable.located ⟨start, front, names, hstart, hsplit, hkept, hnames, deepest,
    hproject.found, hproject.canonical, hproject.missing.imp_left fun hnil ↦ by simp [hnil]⟩

theorem canonicalText_of_readable {path : String} {place : List (List Char)}
    (hm : Mirrors machine cwd t) (h : Readable machine cwd t path place) :
    ∃ text, canonicalText machine.fs machine.native path = some text ∧
      machine.placeOf text = place := by
  obtain ⟨projection, hproject, hplace⟩ := project_of_readable hm h
  exact ⟨projection.canonical, by rw [canonicalText, hproject], hplace⟩

end Mirrors

/-! ## What an accepted root is worth -/

/-- Neither place is the other or lies above it. -/
def Apart (place other : List (List Char)) : Prop :=
  ¬ place <+: other ∧ ¬ other <+: place

section Sound

variable (machine : Machine) (cwd : List (List Char)) (t : FileTree.Tree (List Char))

/-- An accepted root, as the preflight found it and as it lies to the other directories. -/
structure Sound (preflight : RootPreflight) (owner : RootOwner) (root : LocalAbsolutePath)
    (checked : PreflightedRoot) (place : List (List Char)) : Prop where
  located : Located machine cwd t root.text place
  directory : checked.found = true → t.node place = some .directory ∧
    ∃ start, machine.startOf cwd root.text = some start ∧
      Walk t false start.1 (machine.stepsOf root.text) (.found place)
  child : checked.found = false → t.node place = none ∧
    ∃ parent name, place = parent ++ [name] ∧ t.node parent = some .directory
  notVolume : t.top place = false
  application : ∀ entry ∈ RootPreflight.protectedDirs machine, ∀ other,
    Readable machine cwd t entry.2 other → Apart place other ∨
      (other <+: place ∧ other ≠ place ∧
        ∃ runtime, Located machine cwd t machine.appPaths.runtimeDir runtime ∧ runtime <+: place)
  registered : ∀ entry ∈ preflight.others, entry.1 ≠ owner → ∀ other,
    Readable machine cwd t entry.2.text other → Apart place other
  written : (∀ entry ∈ RootPreflight.protectedDirs machine,
      overlapOf machine.toLowercase root.text entry.2 machine.native = .disjoint ∨
        (overlapOf machine.toLowercase root.text entry.2 machine.native = .inside ∧
          RootPreflight.insideRuntime machine root.text false = true)) ∧
    ∀ entry ∈ preflight.others, entry.1 ≠ owner →
      overlapOf machine.toLowercase root.text entry.2.text machine.native = .disjoint

variable {machine cwd t}

theorem RootPreflight.check_ok {preflight : RootPreflight} {owner : RootOwner}
    {root : LocalAbsolutePath} {checked : PreflightedRoot}
    (h : preflight.check machine owner root = .ok checked) :
    root.platform = machine.native ∧
      preflight.rejectOverlap machine owner root.text false = .ok () ∧
      checkEntry machine root.text = .ok () ∧
      ∃ projection, project machine.fs machine.native root.text = .ok projection ∧
        checkMissing machine root.text projection = .ok () ∧
        isFilesystemRoot machine.native projection.canonical = false ∧
        preflight.rejectOverlap machine owner projection.canonical true = .ok () ∧
        checked.found = decide (projection.missing = 0) := by
  simp only [check, ite_error_eq_ok, bind_eq_ok, pure_eq_ok] at h
  obtain ⟨hnative, _, hlexical, _, hentry, projection, hproject, _, hmissing, hroot, _, -, _, -,
    _, -, -, _, hoverlap, rfl⟩ := h
  exact ⟨not_not.mp hnative, hlexical, hentry, projection, hproject, hmissing, by simpa using hroot,
    hoverlap, rfl⟩

theorem RootPreflight.rejectOverlap_written {preflight : RootPreflight} {owner : RootOwner}
    {candidate : String} (h : preflight.rejectOverlap machine owner candidate false = .ok ()) :
    ∀ entry ∈ protectedDirs machine,
      overlapOf machine.toLowercase candidate entry.2 machine.native = .disjoint ∨
        (overlapOf machine.toLowercase candidate entry.2 machine.native = .inside ∧
          insideRuntime machine candidate false = true) := by
  simp only [rejectOverlap, bind_eq_ok] at h
  obtain ⟨_, hprotected, -⟩ := h
  rw [forM_eq_ok] at hprotected
  intro entry hentry
  have hone := hprotected entry hentry
  simp only [rejectProtected, textOf, Bool.false_eq_true, if_false] at hone
  split_ifs at hone with hrelation
  exact hrelation

theorem apart_of_disjoint {a b : String}
    (h : overlapOf machine.toLowercase a b machine.native = .disjoint) :
    Apart (machine.placeOf a) (machine.placeOf b) :=
  overlapOf_disjoint_iff.mp h

/-- A root the canonical pass accepts is apart from every directory that can be read. -/
theorem RootPreflight.rejectOverlap_ok {preflight : RootPreflight} {owner : RootOwner}
    {candidate : String} (hm : Mirrors machine cwd t)
    (hruntime : ∃ start, machine.startOf cwd machine.appPaths.runtimeDir = some start)
    (h : preflight.rejectOverlap machine owner candidate true = .ok ()) :
    (∀ entry ∈ protectedDirs machine, ∀ other, Readable machine cwd t entry.2 other →
      Apart (machine.placeOf candidate) other ∨
        (other <+: machine.placeOf candidate ∧ other ≠ machine.placeOf candidate ∧
          ∃ runtime, Located machine cwd t machine.appPaths.runtimeDir runtime ∧
            runtime <+: machine.placeOf candidate)) ∧
    ∀ entry ∈ preflight.others, entry.1 ≠ owner → ∀ other,
      Readable machine cwd t entry.2.text other → Apart (machine.placeOf candidate) other := by
  simp only [rejectOverlap, bind_eq_ok] at h
  obtain ⟨_, hprotected, hothers⟩ := h
  rw [forM_eq_ok] at hprotected hothers
  constructor
  · intro entry hentry other hreadable
    obtain ⟨text, htext, rfl⟩ := canonicalText_of_readable hm hreadable
    have hone := hprotected entry hentry
    simp only [rejectProtected, textOf, if_true, htext] at hone
    split_ifs at hone with hrelation
    rcases hrelation with hdisjoint | ⟨hinside, hexempt⟩
    · exact .inl (apart_of_disjoint hdisjoint)
    · right
      obtain ⟨hfront, hne⟩ := overlapOf_inside_iff.mp hinside
      refine ⟨hfront, hne, ?_⟩
      simp only [insideRuntime, textOf, if_true, Option.any_eq_true] at hexempt
      obtain ⟨runtime, hruntimeText, hbelow⟩ := hexempt
      obtain ⟨start, hstart⟩ := hruntime
      rw [canonicalText] at hruntimeText
      split at hruntimeText
      · next projection hproject =>
        cases hruntimeText
        refine ⟨_, located_of_project hm hstart hproject, ?_⟩
        split at hbelow
        · next hsame =>
          have hkeys : machine.placeOf candidate = machine.placeOf projection.canonical :=
            overlapOf_same_iff.mp hsame
          exact hkeys ▸ List.prefix_rfl
        · next hinside => exact (overlapOf_inside_iff.mp hinside).1
        · cases hbelow
        · cases hbelow
      · cases hruntimeText
  · intro entry hentry howner other hreadable
    obtain ⟨text, htext, rfl⟩ := canonicalText_of_readable hm hreadable
    have hone := hothers entry hentry
    simp only [rejectRegistered, if_neg howner, textOf, if_true, htext] at hone
    split_ifs at hone with hrelation
    exact apart_of_disjoint hrelation

theorem RootPreflight.check_sound {preflight : RootPreflight} {owner : RootOwner}
    {root : LocalAbsolutePath} {checked : PreflightedRoot} (hm : Mirrors machine cwd t)
    (hruntime : ∃ start, machine.startOf cwd machine.appPaths.runtimeDir = some start)
    (h : preflight.check machine owner root = .ok checked) :
    ∃ place, Sound machine cwd t preflight owner root checked place := by
  obtain ⟨hnative, hlexical, hentry, projection, hproject, hmissing, hroot, hoverlap, hfound⟩ :=
    check_ok h
  obtain ⟨start, hstart⟩ := startOf_local cwd hnative
  obtain ⟨front, names, deepest, hsplit, hkept, hnames, hp⟩ := project_ok hm hstart hproject
  obtain ⟨canonical, hcanonical, hplain, hwhole⟩ := hp.anchored
  have hlast : names ≠ [] → ∃ name, names = [name] ∧ t.node deepest = some .directory ∧
      t.node (deepest ++ [nameKey machine.toLowercase machine.native name]) = none := by
    intro hne
    have hcount := hp.count
    rw [checkMissing] at hmissing
    split at hmissing
    · next hzero => exact absurd (List.eq_nil_of_length_eq_zero (hcount ▸ hzero)) hne
    · next hone =>
      split_ifs at hmissing with hdir
      obtain ⟨name, rfl⟩ := List.length_eq_one_iff.mp (hcount ▸ hone)
      have hnode : t.node deepest = some .directory := by
        rw [← hp.anchor, ← hplain]
        exact hm.isDir _ canonical hcanonical (by rwa [hplain])
      refine ⟨name, rfl, hnode, ?_⟩
      -- the name is missing below a directory, not below a file
      rcases (hp.missing.resolve_left hne).absent_inv with hfile | ⟨_, _, heq, -, hnone⟩
      · simp [hnode] at hfile
      · cases heq
        exact hnone
    · cases hmissing
  have hfoundIff : checked.found = true ↔ names = [] := by
    rw [hfound, decide_eq_true_iff, hp.count, List.length_eq_zero_iff]
  refine ⟨machine.placeOf projection.canonical, located_of_project hm hstart hproject, ?_, ?_, ?_,
    (rejectOverlap_ok hm hruntime hoverlap).1, (rejectOverlap_ok hm hruntime hoverlap).2,
    rejectOverlap_written hlexical, (check_disjoint h).2⟩
  · intro hthere
    have hnil := hfoundIff.mp hthere
    subst hnil
    have hsteps : machine.stepsOf root.text =
        Platform.stepsOf machine.toLowercase machine.native front := by
      rw [Machine.stepsOf, pathSteps, hsplit, List.append_nil]
    have hplace : machine.placeOf projection.canonical = deepest := by
      simpa using hp.canonical
    obtain ⟨fileType, hmetadata⟩ := metadata_of_found hm hstart (hsteps ▸ hp.found)
    have hdirectory : fileType = .directory := by
      rw [checkEntry, hmetadata] at hentry
      cases fileType <;> first | rfl | cases hentry
    subst hdirectory
    obtain ⟨place, hwalk, hnode⟩ := hm.metadata _ start _ hstart hmetadata
    have hnode' : t.node place = some .directory := by
      cases hn : t.node place with
      | none => simp [hn] at hnode
      | some node => cases node <;> simp [hn, typeOf] at hnode ⊢
    -- the entry itself is a directory, so following links changes nothing
    have hsame := (hwalk.following (by simp [hnode'])).unique (hsteps ▸ hp.found)
    rw [Answer.found.injEq] at hsame
    rw [hplace, ← hsame]
    exact ⟨hnode', start, hstart, hwalk⟩
  · intro hnot
    have hne : names ≠ [] := fun hnil ↦ by simp [hfoundIff.mpr hnil] at hnot
    obtain ⟨name, rfl, hnode, hnone⟩ := hlast hne
    rw [hp.canonical]
    exact ⟨hnone, deepest, _, rfl, hnode⟩
  · by_contra htop
    rw [Bool.not_eq_false] at htop
    by_cases hnil : names = []
    · have hvolume := hm.volume _ canonical hcanonical
      rw [hplain, ← hwhole hnil] at hvolume
      simp [hvolume htop] at hroot
    · obtain ⟨name, rfl, hnode, hnone⟩ := hlast hnil
      have hsome := hm.volumes _ htop
      rw [hp.canonical] at hsome
      simp [hnone] at hsome

theorem verifyContainment_sound {root child : LocalAbsolutePath} (hm : Mirrors machine cwd t)
    (h : verifyContainment machine root child = .ok ()) :
    ∃ rootPlace childPlace, Located machine cwd t root.text rootPlace ∧
      Located machine cwd t child.text childPlace ∧ rootPlace <+: childPlace ∧
      rootPlace ≠ childPlace := by
  simp only [verifyContainment, bind_eq_ok, ite_error_eq_ok] at h
  obtain ⟨_, hnative, -, rootProjection, hroot, childProjection, hchild, hinside, -⟩ := h
  rw [forM_eq_ok] at hnative
  simp only [List.mem_cons, List.not_mem_nil, or_false, forall_eq_or_imp, forall_eq,
    ite_error_eq_ok, not_not, and_true] at hnative
  obtain ⟨rootStart, hrootStart⟩ := startOf_local cwd hnative.1
  obtain ⟨childStart, hchildStart⟩ := startOf_local cwd hnative.2
  rw [not_not, hnative.1] at hinside
  exact ⟨_, _, located_of_project hm hrootStart hroot, located_of_project hm hchildStart hchild,
    overlapOf_inside_iff.mp hinside⟩

/-- An accepted root is there or is one missing child of a directory, is neither a link nor a
volume, and lies apart from every other directory this account can read; a contained child lies
strictly below its root; and being inside is a strict order that containing reverses. -/
theorem accepted_root_sound (hm : Mirrors machine cwd t)
    (hruntime : ∃ start, machine.startOf cwd machine.appPaths.runtimeDir = some start) :
    (∀ preflight owner root checked,
      RootPreflight.check machine preflight owner root = .ok checked →
      ∃ place, Sound machine cwd t preflight owner root checked place) ∧
    (∀ root child, verifyContainment machine root child = .ok () →
      ∃ rootPlace childPlace, Located machine cwd t root.text rootPlace ∧
        Located machine cwd t child.text childPlace ∧ rootPlace <+: childPlace ∧
        rootPlace ≠ childPlace) ∧
    ∀ toLowercase platform,
      (∀ a, overlapOf toLowercase a a platform = .same) ∧
      (∀ a b, overlapOf toLowercase a b platform = .inside ↔
        overlapOf toLowercase b a platform = .contains) ∧
      ∀ a b c, overlapOf toLowercase a b platform = .inside →
        overlapOf toLowercase b c platform = .inside →
        overlapOf toLowercase a c platform = .inside := by
  refine ⟨fun preflight owner root checked h ↦ RootPreflight.check_sound hm hruntime h,
    fun root child h ↦ verifyContainment_sound hm h, fun toLowercase platform ↦ ⟨?_, ?_, ?_⟩⟩
  · exact fun a ↦ overlapOf_same_iff.mpr rfl
  · exact fun a b ↦ overlapOf_contains_iff.symm
  · exact fun a b c hab hbc ↦ overlapOf_inside_trans hab hbc

end Sound

/-! ## A Unix system for every tree -/

section Unix

variable (t : FileTree.Tree (List Char)) (cwd : List (List Char))

def renderUnix (place : List (List Char)) : String :=
  joinPath .unix ['/'] place

open Classical in
/-- A Unix system whose every volume is local and writable, and whose answers come from a tree. -/
noncomputable def unixFilesystem : Filesystem where
  symlinkMetadata path :=
    match startOf (fun c ↦ [c]) .unix cwd path with
    | none => .error .notFound
    | some start =>
      if h : ∃ node place, Walk t false start.1 (pathSteps (fun c ↦ [c]) .unix path)
          (.found place) ∧ t.node place = some node then .ok (typeOf h.choose)
      else if ∃ place rest, Walk t false start.1 (pathSteps (fun c ↦ [c]) .unix path)
          (.absent place rest) then .error .notFound
      else .error (.other "permission denied")
  canonicalize path :=
    match startOf (fun c ↦ [c]) .unix cwd path with
    | none => .error .notFound
    | some start =>
      if h : ∃ place, Walk t true start.1 (pathSteps (fun c ↦ [c]) .unix path)
          (.found place) then .ok (renderUnix h.choose)
      else .error .notFound
  isDir path := decide (t.node (pathKey (fun c ↦ [c]) .unix path) = some .directory)
  identify _ := .ok ⟨"ext4", .isLocal⟩
  isWritable _ := .ok true
  createDir _ := .error .notFound
  runsAsSuperuser := false
  isOnPrivacyGatedVolume _ := false
  isReadOnly _ := false

/-- A Linux machine with that system. -/
noncomputable def unixMachine (appPaths : AppPaths) : Machine where
  native := .unix
  macos := false
  systemDirectory := .error .notFound
  toLowercase c := [c]
  appPaths := appPaths
  fs := unixFilesystem t cwd

variable {t cwd}

theorem pathKey_renderUnix {toLowercase : Char → List Char} {place : List (List Char)}
    (h : ∀ name ∈ place, Writable .unix name) :
    pathKey toLowercase .unix (renderUnix place) = place := by
  have htext : renderUnix place =
      String.ofList ([] ++ '/' :: [PathPlatform.unix.separator].intercalate place) := rfl
  have hkeys : place.map (nameKey toLowercase .unix) = place := List.map_id' place
  rw [pathKey, htext, componentsOf_separator _ _ rfl, componentsOf_intercalate h]
  simpa [componentsOf] using hkeys

theorem isFilesystemRoot_renderUnix {place : List (List Char)}
    (h : ∀ name ∈ place, Writable .unix name) :
    isFilesystemRoot .unix (renderUnix place) = place.isEmpty := by
  have hread : pathPrefix .unix (renderUnix place).toList =
      .ok (['/'], [PathPlatform.unix.separator].intercalate place) := by
    simp [renderUnix, joinPath, pathPrefix, unixPrefix]
  rw [isFilesystemRoot, splitPath_of_root hread, componentsOf_intercalate h]

/-- A tree a Unix system can show: grounded, from one root, with names that can be written. -/
structure UnixTree (t : FileTree.Tree (List Char)) (cwd : List (List Char)) : Prop where
  grounded : t.Grounded
  root : t.node [] = some .directory
  cwd : t.node cwd = some .directory
  names : ∀ place node, t.node place = some node → ∀ name ∈ place, Writable .unix name
  top : ∀ place, t.top place = true → place = []

theorem UnixTree.starts (h : UnixTree t cwd) {path : String} {start : List (List Char) × Nat}
    (hstart : startOf (fun c ↦ [c]) .unix cwd path = some start) :
    t.node start.1 = some .directory := by
  rw [startOf] at hstart
  split at hstart
  · next root rest hread =>
    cases hstart
    simp only [pathPrefix] at hread
    unfold unixPrefix at hread
    split at hread
    · cases hread
      exact h.root
    · cases hread
  · split_ifs at hstart
    cases hstart
    exact h.cwd

theorem UnixTree.found (h : UnixTree t cwd) {path : String} {start : List (List Char) × Nat}
    {follow : Bool} {place : List (List Char)}
    (hstart : startOf (fun c ↦ [c]) .unix cwd path = some start)
    (hwalk : Walk t follow start.1 (pathSteps (fun c ↦ [c]) .unix path) (.found place)) :
    ∃ node, t.node place = some node :=
  hwalk.found_node h.grounded (by simp [h.starts hstart])

theorem UnixTree.canonicalize (h : UnixTree t cwd) {path canonical : String}
    (hcanonical : (unixFilesystem t cwd).canonicalize path = .ok canonical) :
    ∃ start place, startOf (fun c ↦ [c]) .unix cwd path = some start ∧
      Walk t true start.1 (pathSteps (fun c ↦ [c]) .unix path) (.found place) ∧
      canonical = renderUnix place ∧ ∀ name ∈ place, Writable .unix name := by
  simp only [unixFilesystem] at hcanonical
  split at hcanonical
  · cases hcanonical
  · next start hstart =>
    split_ifs at hcanonical with hplace
    cases hcanonical
    obtain ⟨node, hnode⟩ := h.found hstart hplace.choose_spec
    exact ⟨start, _, hstart, hplace.choose_spec, rfl, h.names _ node hnode⟩

theorem unixMachine_mirrors {appPaths : AppPaths} (ht : UnixTree t cwd) :
    Mirrors (unixMachine t cwd appPaths) cwd t := by
  refine ⟨⟨.notFound, rfl, rfl⟩, ?_, ?_, ?_, ?_, ?_, ?_, ?_, ?_, ?_⟩
  · intro path start place hstart hwalk
    obtain ⟨node, hnode⟩ := ht.found hstart hwalk
    have hthere : ∃ node place, Walk t false start.1 (pathSteps (fun c ↦ [c]) .unix path)
        (.found place) ∧ t.node place = some node := ⟨node, place, hwalk, hnode⟩
    refine ⟨typeOf hthere.choose, ?_⟩
    simp only [unixMachine, unixFilesystem]
    rw [show startOf (fun c ↦ [c]) .unix cwd path = some start from hstart]
    simp only [dif_pos hthere]
  · intro path start fileType hstart h
    simp only [unixMachine, unixFilesystem] at h
    rw [show startOf (fun c ↦ [c]) .unix cwd path = some start from hstart] at h
    simp only at h
    split_ifs at h with hthere
    cases h
    obtain ⟨place, hwalk, hnode⟩ := hthere.choose_spec
    exact ⟨place, hwalk, by simp [hnode]⟩
  · intro path start place rest hstart hwalk
    have hnot : ¬ ∃ node place, Walk t false start.1 (pathSteps (fun c ↦ [c]) .unix path)
        (.found place) ∧ t.node place = some node := by
      rintro ⟨_, _, hother, -⟩
      cases hother.unique hwalk
    refine ⟨.notFound, ?_, rfl⟩
    simp only [unixMachine, unixFilesystem]
    rw [show startOf (fun c ↦ [c]) .unix cwd path = some start from hstart]
    simp only [dif_neg hnot]
    exact if_pos ⟨place, rest, hwalk⟩
  · intro path start e hstart h habsent
    simp only [unixMachine, unixFilesystem] at h
    rw [show startOf (fun c ↦ [c]) .unix cwd path = some start from hstart] at h
    simp only at h
    split_ifs at h with hthere hmissing
    · exact hmissing
    · cases h
      cases habsent
  · intro path start place hstart hwalk
    have hthere : ∃ place, Walk t true start.1 (pathSteps (fun c ↦ [c]) .unix path)
        (.found place) := ⟨place, hwalk⟩
    refine ⟨renderUnix hthere.choose, ?_⟩
    simp only [unixMachine, unixFilesystem]
    rw [show startOf (fun c ↦ [c]) .unix cwd path = some start from hstart]
    simp only [dif_pos hthere]
  · intro path start canonical hstart h
    obtain ⟨start', place, hstart', hwalk, rfl, hwritable⟩ := ht.canonicalize h
    have hsame : startOf (fun c ↦ [c]) .unix cwd path = some start := hstart
    rw [hstart', Option.some.injEq] at hsame
    subst hsame
    show Walk t true start'.1 _ (.found (pathKey (fun c ↦ [c]) .unix (renderUnix place)))
    rw [pathKey_renderUnix hwritable]
    exact hwalk
  · intro path canonical h hvolume
    obtain ⟨_, place, -, -, rfl, hwritable⟩ := ht.canonicalize h
    show isFilesystemRoot .unix (renderUnix place) = true
    have hplace : t.top (pathKey (fun c ↦ [c]) .unix (renderUnix place)) = true := hvolume
    rw [pathKey_renderUnix hwritable] at hplace
    rw [isFilesystemRoot_renderUnix hwritable, ht.top place hplace]
    rfl
  · intro path canonical _ hdir
    exact of_decide_eq_true hdir
  · intro place hvolume
    rw [ht.top place hvolume]
    exact ht.root

theorem UnixTree.metadata {appPaths : AppPaths} {path : String}
    {start : List (List Char) × Nat} {place : List (List Char)} {node : Node (List Char)}
    (ht : UnixTree t cwd) (hstart : startOf (fun c ↦ [c]) .unix cwd path = some start)
    (hwalk : Walk t false start.1 (pathSteps (fun c ↦ [c]) .unix path) (.found place))
    (hnode : t.node place = some node) :
    (unixMachine t cwd appPaths).fs.symlinkMetadata path = .ok (typeOf node) := by
  have hm : Mirrors (unixMachine t cwd appPaths) cwd t := unixMachine_mirrors ht
  obtain ⟨fileType, h⟩ := hm.present path start place hstart hwalk
  obtain ⟨other, hother, htype⟩ := hm.metadata path start fileType hstart h
  cases hwalk.unique hother
  rw [hnode] at htype
  cases htype
  exact h

end Unix

/-! ## A directory this account cannot search -/

/-- `/srv/w` is a directory, and `/lock/d` a link to `/srv` in a directory that may not be
searched. -/
def lockedNodes : List (List (List Char) × Node (List Char)) :=
  [([], .directory),
    (["srv".toList], .directory),
    (["srv".toList, "w".toList], .directory),
    (["lock".toList], .directory),
    (["lock".toList, "d".toList], .link (some []) [.normal "srv".toList])]

/-- The tree of these entries. -/
def lockedTree : FileTree.Tree (List Char) where
  node place := lockedNodes.lookup place
  searchable place := place != ["lock".toList]
  top place := place.isEmpty

/-- A machine with that tree, whose application directories are not there yet. -/
noncomputable def lockedMachine : Machine :=
  unixMachine lockedTree [] {
    configDir := "/app/config"
    stateDir := "/app/state"
    logsDir := "/app/logs"
    runtimeDir := "/app/runtime" }

def srvRoot : LocalAbsolutePath := ⟨"/srv/w", .unix, by rfl⟩

/-- The other owner's root. -/
def lockedRoot : LocalAbsolutePath := ⟨"/lock/d/w", .unix, by rfl⟩

theorem mem_lockedNodes {place : List (List Char)} {node : Node (List Char)}
    (h : lockedTree.node place = some node) : (place, node) ∈ lockedNodes := by
  obtain ⟨before, after, hsplit, -⟩ := List.lookup_eq_some_iff.mp h
  rw [hsplit]
  exact List.mem_append_right _ List.mem_cons_self

theorem lockedTree_unix : UnixTree lockedTree [] where
  grounded := by
    constructor
    · intro place h
      have hall : ∀ entry ∈ lockedNodes, entry.2 = .directory →
          lockedTree.node (lockedTree.above entry.1) = some .directory := by decide
      exact hall _ (mem_lockedNodes h) rfl
    · intro place start target h
      have hmem := mem_lockedNodes h
      simp [lockedNodes] at hmem
      obtain ⟨-, rfl, -⟩ := hmem
      rfl
  root := rfl
  cwd := rfl
  names := by
    intro place node h name hname
    have hall : ∀ entry ∈ lockedNodes, ∀ name ∈ entry.1, name ≠ [] ∧ name ≠ ['.'] ∧
        ∀ c ∈ name, PathPlatform.unix.isSeparator c = false := by decide
    obtain ⟨hnonempty, hhere, hfree⟩ := hall _ (mem_lockedNodes h) name hname
    exact ⟨hnonempty, hhere, hfree⟩
  top place h := List.isEmpty_iff.mp h

theorem lockedMachine_mirrors : Mirrors lockedMachine [] lockedTree :=
  unixMachine_mirrors lockedTree_unix

theorem srv_walk (follow : Bool) : Walk lockedTree follow []
    (pathSteps (fun c ↦ [c]) .unix srvRoot.text) (.found ["srv".toList, "w".toList]) := by
  show Walk lockedTree follow [] [.normal "srv".toList, .normal "w".toList] _
  exact .directory ⟨rfl, rfl⟩ rfl (.directory ⟨rfl, rfl⟩ rfl (.done _))

theorem lockedRoot_located :
    Located lockedMachine [] lockedTree lockedRoot.text ["srv".toList, "w".toList] := by
  refine ⟨([], 0), rfl, .inl ?_⟩
  show Walk lockedTree.unlocked true [] [.normal "lock".toList, .normal "d".toList,
    .normal "w".toList] _
  refine .directory ⟨rfl, rfl⟩ rfl (.followed ⟨rfl, rfl⟩ rfl (.inl rfl) ?_)
  exact .directory ⟨rfl, rfl⟩ rfl (.directory ⟨rfl, rfl⟩ rfl (.done _))

/-- This account has no answer for the other root. -/
theorem lockedRoot_unreadable :
    canonicalText lockedMachine.fs lockedMachine.native lockedRoot.text = none := by
  have hnowhere : ∀ answer, ¬ Walk lockedTree false []
      (pathSteps (fun c ↦ [c]) .unix lockedRoot.text) answer := by
    intro answer h
    have hlock : Walk lockedTree false ["lock".toList]
        [.normal "d".toList, .normal "w".toList] answer := h.directory_inv ⟨rfl, rfl⟩ rfl
    rcases hlock.searched with hfile | hopens
    · cases hfile
    · cases hopens.searchable
  have hmetadata : lockedMachine.fs.symlinkMetadata lockedRoot.text =
      .error (.other "permission denied") := by
    simp only [lockedMachine, unixMachine, unixFilesystem]
    rw [show startOf (fun c ↦ [c]) .unix [] lockedRoot.text = some ([], 0) from rfl]
    simp only
    rw [dif_neg (by rintro ⟨_, _, h, -⟩; exact hnowhere _ h),
      if_neg (by rintro ⟨_, _, h⟩; exact hnowhere _ h)]
  have hcursor : joinPath .unix ['/'] ["lock".toList, "d".toList, "w".toList] = lockedRoot.text :=
    rfl
  have hdeepest : deepestExisting lockedMachine.fs .unix ['/']
      ["w".toList, "d".toList, "lock".toList] [] =
      .error (.inspect lockedRoot.text (.other "permission denied")) := by
    rw [deepestExisting.eq_def]
    simp only [List.reverse_cons, List.reverse_nil, List.nil_append, List.cons_append, hcursor,
      hmetadata]
    rfl
  have hproject : project lockedMachine.fs .unix lockedRoot.text =
      .error (.inspect lockedRoot.text (.other "permission denied")) := by
    have hsplit : splitPath .unix lockedRoot.text =
        (['/'], ["lock".toList, "d".toList, "w".toList]) := rfl
    rw [project, hsplit]
    show (deepestExisting lockedMachine.fs .unix ['/']
      ["w".toList, "d".toList, "lock".toList] [] >>= _) = _
    rw [hdeepest]
    rfl
  rw [show lockedMachine.native = .unix from rfl, canonicalText, hproject]

theorem srvRoot_project : project lockedMachine.fs .unix srvRoot.text = .ok {
    anchor := srvRoot.text
    anchorAsWritten := srvRoot.text
    canonical := srvRoot.text
    missing := 0 } := by
  have hnode : lockedTree.node ["srv".toList, "w".toList] = some .directory := rfl
  have hmetadata : lockedMachine.fs.symlinkMetadata srvRoot.text = .ok (typeOf .directory) :=
    lockedTree_unix.metadata rfl (srv_walk false) hnode
  obtain ⟨canonical, hcanonical⟩ := lockedMachine_mirrors.resolves srvRoot.text ([], 0) _ rfl
    (srv_walk true)
  have htext : canonical = srvRoot.text := by
    obtain ⟨start, place, hstart, hwalk, rfl, -⟩ := lockedTree_unix.canonicalize hcanonical
    cases hstart
    cases hwalk.unique (srv_walk true)
    rfl
  subst htext
  have hsplit : splitPath .unix srvRoot.text = (['/'], ["srv".toList, "w".toList]) := rfl
  have hdeepest : deepestExisting lockedMachine.fs .unix ['/'] ["w".toList, "srv".toList] [] =
      .ok (srvRoot.text, []) := by
    rw [deepestExisting.eq_def]
    simp only [List.reverse_cons, List.reverse_nil, List.nil_append, List.cons_append]
    rw [show joinPath .unix ['/'] ["srv".toList, "w".toList] = srvRoot.text from rfl, hmetadata]
  rw [project, hsplit]
  show (deepestExisting lockedMachine.fs .unix ['/'] ["w".toList, "srv".toList] [] >>= _) = _
  rw [hdeepest]
  show ((((lockedMachine.fs.canonicalize srvRoot.text).map (plain .unix)).mapError _) >>= _) = _
  rw [hcanonical]
  rfl

theorem app_readable (name : List Char) (path : String)
    (hpath : splitPath .unix path = (['/'], ["app".toList, name]))
    (hstart : startOf (fun c ↦ [c]) .unix [] path = some ([], 0))
    (hname : name ≠ ['.', '.']) :
    Readable lockedMachine [] lockedTree path ["app".toList, name] := by
  refine ⟨([], 0), [], ["app".toList, name], hstart, ?_, by simp, ?_, [], .done _, rfl, .inr ?_⟩
  · exact congrArg Prod.snd hpath
  · simpa using hname
  · exact .missing ⟨rfl, rfl⟩ rfl

/-- The candidate is accepted beside the other owner's root. -/
theorem srvRoot_accepted : ∃ checked,
    (RootPreflight.new.against (.repository "o/r") lockedRoot).check lockedMachine .host srvRoot =
      .ok checked := by
  have hlexical : (RootPreflight.new.against (.repository "o/r") lockedRoot).rejectOverlap
      lockedMachine .host srvRoot.text false = .ok () := by rfl
  have hnode : lockedTree.node ["srv".toList, "w".toList] = some .directory := rfl
  have hmetadata : lockedMachine.fs.symlinkMetadata srvRoot.text = .ok (typeOf .directory) :=
    lockedTree_unix.metadata rfl (srv_walk false) hnode
  have happ : ∀ entry ∈ RootPreflight.protectedDirs lockedMachine,
      RootPreflight.rejectProtected lockedMachine srvRoot.text true entry = .ok () := by
    have hone : ∀ label path name, splitPath .unix path = (['/'], ["app".toList, name]) →
        startOf (fun c ↦ [c]) .unix [] path = some ([], 0) → name ≠ ['.', '.'] →
        RootPreflight.rejectProtected lockedMachine srvRoot.text true (label, path) = .ok () := by
      intro label path name hpath hstart hname
      obtain ⟨text, htext, hplace⟩ := canonicalText_of_readable lockedMachine_mirrors
        (app_readable name path hpath hstart hname)
      have hdisjoint : overlapOf lockedMachine.toLowercase srvRoot.text text
          lockedMachine.native = .disjoint := by
        rw [overlapOf_disjoint_iff]
        show Apart (lockedMachine.placeOf srvRoot.text) (lockedMachine.placeOf text)
        rw [hplace, show lockedMachine.placeOf srvRoot.text = ["srv".toList, "w".toList] from rfl]
        simp [Apart]
      simp [RootPreflight.rejectProtected, RootPreflight.textOf, htext, hdisjoint]
    intro entry hentry
    simp only [RootPreflight.protectedDirs, List.mem_cons, List.not_mem_nil, or_false] at hentry
    rcases hentry with rfl | rfl | rfl
    · exact hone _ _ "config".toList rfl rfl (by decide)
    · exact hone _ _ "state".toList rfl rfl (by decide)
    · exact hone _ _ "logs".toList rfl rfl (by decide)
  have hcanonical : (RootPreflight.new.against (.repository "o/r") lockedRoot).rejectOverlap
      lockedMachine .host srvRoot.text true = .ok () := by
    rw [RootPreflight.rejectOverlap, bind_eq_ok]
    refine ⟨(), forM_eq_ok.mpr happ, forM_eq_ok.mpr ?_⟩
    intro entry hentry
    obtain rfl : entry = (.repository "o/r", lockedRoot) := List.mem_singleton.mp hentry
    rw [RootPreflight.rejectRegistered, if_neg (by decide), RootPreflight.textOf, if_pos rfl,
      lockedRoot_unreadable]
  refine ⟨{ root := srvRoot
            canonical := srvRoot.text
            found := true
            filesystem := ⟨"ext4", .isLocal⟩ }, ?_⟩
  have hproject : project lockedMachine.fs lockedMachine.native srvRoot.text = _ := srvRoot_project
  rw [RootPreflight.check, if_neg (by simp [srvRoot, lockedMachine, unixMachine])]
  simp only [bind_eq_ok]
  refine ⟨(), hlexical, (), ?_, _, hproject, (), rfl, ?_⟩
  · rw [RootPreflight.checkEntry, hmetadata]
    rfl
  · rw [if_neg (by decide)]
    simp only [bind_eq_ok]
    exact ⟨_, rfl, (), rfl, true, rfl, by simp [hcanonical, bind, Except.bind, pure, Except.pure]⟩

/-- A root another owner's root leads to is accepted where this account cannot search the
directory of a link. -/
theorem unreadable_root_shared : Mirrors lockedMachine [] lockedTree ∧ (∃ checked,
    (RootPreflight.new.against (.repository "o/r") lockedRoot).check lockedMachine .host srvRoot =
      .ok checked) ∧
    ∃ place, Located lockedMachine [] lockedTree srvRoot.text place ∧
      Located lockedMachine [] lockedTree lockedRoot.text place :=
  ⟨lockedMachine_mirrors, srvRoot_accepted, _,
    ⟨([], 0), rfl, .inl (srv_walk true).unlocked⟩, lockedRoot_located⟩

/-- What the preflight promises of that root. -/
theorem srvRoot_sound : ∃ checked place,
    (RootPreflight.new.against (.repository "o/r") lockedRoot).check lockedMachine .host srvRoot =
      .ok checked ∧
    Sound lockedMachine [] lockedTree (RootPreflight.new.against (.repository "o/r") lockedRoot)
      .host srvRoot checked place := by
  obtain ⟨checked, hchecked⟩ := srvRoot_accepted
  obtain ⟨place, hsound⟩ := (accepted_root_sound lockedMachine_mirrors ⟨([], 0), rfl⟩).1 _ _ _ _
    hchecked
  exact ⟨checked, place, hchecked, hsound⟩

end RunnerManager.Platform
