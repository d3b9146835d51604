import RunnerManager.Agent.PackageUnpacking

/-!
# What an extracted package holds

Where the entries of an archive land, and where its links lead when an operating system reads them.
Read `extract_contained` first: the checks are about the text of one entry, so they are worth what
they say for an archive that reads no `..` behind its own links, links no link to another name, and
lists every directory it uses. `links_compose` is an archive that does not.
-/

namespace RunnerManager.Agent.Package

open RunnerManager.FileTree RunnerManager.Result

/-! ## While an archive is extracted -/

/-- What holds while an archive is extracted: `dirs` and `links` are the places of its directories
and symbolic links, `later` those of directories still to come, whose modes are not set yet.
Nothing is known of the mode of a `dirty` place. -/
structure Inv (root : List String) (start : Disk) (links dirs later dirty : List String → Prop)
    (disk : Disk) : Prop where
  outside : ∀ place, ¬ root <+: place → disk.tree.node place = start.tree.node place
  base : disk.tree.node root = some .directory
  confined : disk.tree.Confined root links
  made : ∀ way, dirs way → ¬ links way →
    later way ∨ disk.tree.node (root ++ way) = some .directory
  kept : ∀ place, place ≠ [] → ¬ dirty place →
    disk.tree.node (root ++ place) = some .file ∨
      disk.tree.node (root ++ place) = some .directory →
    Private (disk.mode (root ++ place)) ∨
      disk.tree.node (root ++ place) = some .directory ∧ later place

section Steps

variable {into : Path} {root names : List String} {start disk next : Disk}
  {links dirs later dirty : List String → Prop}

theorem walk_names {t : FileTree.Tree String} {follow : Bool} {found : List String}
    (hconfined : t.Confined root links) (hplain : ∀ way, way ≠ [] → way <+: names → ¬ links way)
    (h : Walk t follow root (names.map .normal) (.found found)) : found = root ++ names := by
  have havoids : Avoids links [] (names.map .normal) := by
    rw [avoids_names]
    simpa using hplain
  have hwalk : Walk t follow (root ++ []) (names.map .normal) (.found found) := by simpa using h
  rw [hwalk.leads hconfined havoids, written_names, List.nil_append]

/-- The directories on the way are directories of the archive that are still to come. -/
theorem Inv.makesWay (h : Inv root start links dirs later dirty disk)
    (hway : MakesWay root names disk next)
    (hplain : ∀ way, way ≠ [] → way <+: names → ¬ links way ∧ dirs way) :
    Inv root start links dirs later dirty next ∧
      (∀ place, disk.tree.node place ≠ none → next.tree.node place = disk.tree.node place) := by
  have hconfined : next.tree.Confined root links := by
    refine ⟨fun place base target hlink ↦ ?_, fun place hplace ↦ ?_⟩
    · rcases hway.made (root ++ place) with hsame | ⟨-, hnode, -⟩
      · exact h.confined.link place base target (hsame.1 ▸ hlink)
      · rw [hnode] at hlink
        cases hlink
    · rw [hway.top]
      exact h.confined.top place hplace
  have hnew : ∀ place, (next.tree.node place = disk.tree.node place ∧
      next.mode place = disk.mode place) ∨ disk.tree.node place = none ∧
        next.tree.node place = some .directory ∧ ∃ way, place = root ++ way ∧ later way := by
    intro place
    rcases hway.made place with hsame | ⟨hnone, hnode, way, hle, hwalk⟩
    · exact .inl hsame
    · have hfound := walk_names hconfined
        (fun other hother hbelow ↦ (hplain other hother (hbelow.trans hle)).1) hwalk
      have hne : way ≠ [] := by
        rintro rfl
        rw [hfound, List.append_nil, h.base] at hnone
        cases hnone
      refine .inr ⟨hnone, hnode, way, hfound, ?_⟩
      obtain ⟨hlinks, hdirs⟩ := hplain way hne hle
      refine (h.made way hdirs hlinks).resolve_right fun hthere ↦ ?_
      rw [hfound, hthere] at hnone
      cases hnone
  have hsame : ∀ place, disk.tree.node place ≠ none →
      next.tree.node place = disk.tree.node place := by
    intro place hplace
    rcases hnew place with hsame | ⟨hnone, -⟩
    · exact hsame.1
    · exact absurd hnone hplace
  refine ⟨⟨?_, ?_, hconfined, ?_, ?_⟩, hsame⟩
  · intro place houtside
    rcases hnew place with hsame | ⟨-, -, way, rfl, -⟩
    · exact hsame.1.trans (h.outside place houtside)
    · exact absurd (List.prefix_append root way) houtside
  · rw [hsame root (by simp [h.base])]
    exact h.base
  · intro way hdirs hlinks
    refine (h.made way hdirs hlinks).imp_right fun hnode ↦ ?_
    rw [hsame _ (by simp [hnode])]
    exact hnode
  · intro place hplace hdirty hnode
    rcases hnew (root ++ place) with ⟨hsame, hmode⟩ | ⟨-, hdirectory, way, heq, hlater⟩
    · rw [hsame] at hnode ⊢
      rw [hmode]
      exact h.kept place hplace hdirty hnode
    · rw [List.append_cancel_left heq]
      rw [List.append_cancel_left heq] at hdirectory
      exact .inr ⟨hdirectory, hlater⟩

/-- A change at one place beneath the root. -/
theorem Inv.elsewhere {allowed : Nat → Prop} (h : Inv root start links dirs later dirty disk)
    (hnames : names ≠ []) (helse : Elsewhere (root ++ names) allowed disk next)
    (hallowed : ∀ mode, allowed mode → Private mode)
    (hlink : ∀ base target, next.tree.node (root ++ names) = some (.link base target) →
      links names ∧ base = none ∧ Tame links names.dropLast target)
    (hdirectory : disk.tree.node (root ++ names) = some .directory →
      next.tree.node (root ++ names) = some .directory)
    (hkept : dirty names ∨ (next.tree.node (root ++ names) = some .file ∨
      next.tree.node (root ++ names) = some .directory → Private (next.mode (root ++ names)))) :
    Inv root start links dirs later dirty next := by
  have hroot : root ≠ root ++ names := by simpa using hnames
  have hother : ∀ place, place ≠ names → root ++ place ≠ root ++ names :=
    fun place hne heq ↦ hne (List.append_cancel_left heq)
  refine ⟨?_, ?_, ⟨?_, ?_⟩, ?_, ?_⟩
  · intro place houtside
    have hne : place ≠ root ++ names := fun heq ↦ houtside (heq ▸ List.prefix_append root names)
    exact (helse.node place hne).trans (h.outside place houtside)
  · exact (helse.node root hroot).trans h.base
  · intro place base target hnode
    by_cases hplace : place = names
    · subst hplace
      exact hlink base target hnode
    · rw [helse.node _ (hother place hplace)] at hnode
      exact h.confined.link place base target hnode
  · intro place hplace
    rw [helse.top]
    exact h.confined.top place hplace
  · intro way hdirs hlinks
    refine (h.made way hdirs hlinks).imp_right fun hnode ↦ ?_
    by_cases hway : way = names
    · subst hway
      exact hdirectory hnode
    · rw [helse.node _ (hother way hway)]
      exact hnode
  · intro place hplace hdirty hnode
    by_cases hhere : place = names
    · subst hhere
      exact .inl ((hkept.resolve_left hdirty) hnode)
    · rw [helse.node _ (hother place hhere)] at hnode ⊢
      rcases helse.mode _ (hother place hhere) with hmode | hmode
      · rw [hmode]
        exact h.kept place hplace hdirty hnode
      · exact .inl (hallowed _ hmode)

theorem Inv.setPermissions {mode : Nat} {place : List String}
    (h : Inv root start links dirs later (· = names) disk) (hmode : Private mode)
    (hplain : ∀ way, way ≠ [] → way <+: names → way ≠ names → ¬ links way)
    (hwalk : Walk disk.tree true root (names.map .normal) (.found place))
    (htree : next.tree = disk.tree) (hset : next.mode place = mode)
    (hothers : ∀ other, next.mode other = disk.mode other ∨ next.mode other = mode) :
    Inv root start links dirs later (fun _ ↦ False) next ∧
      (next.tree.node (root ++ names) = some .file ∨
        next.tree.node (root ++ names) = some .directory →
          Private (next.mode (root ++ names))) := by
  obtain ⟨houtside, hbase, hconfined, hmade, hkept⟩ := h
  rw [← htree] at hbase hconfined
  have hhere : next.tree.node (root ++ names) = some .file ∨
      next.tree.node (root ++ names) = some .directory → Private (next.mode (root ++ names)) := by
    -- where no link stands, this is the place that was set
    intro hnode
    rw [htree] at hnode
    have hfound : place = root ++ names := by
      have hfewer : disk.tree.Confined root fun way ↦ links way ∧ way ≠ names := by
        refine (htree ▸ hconfined).restrict (fun _ h ↦ h.1) fun way base target hlink hlinks ↦ ?_
        refine ⟨hlinks, fun heq ↦ ?_⟩
        rw [heq] at hlink
        simp [hlink] at hnode
      exact walk_names hfewer
        (fun way hway hle hlinks ↦ hplain way hway hle hlinks.2 hlinks.1) hwalk
    rw [← hfound, hset]
    exact hmode
  refine ⟨⟨htree ▸ houtside, hbase, hconfined, htree ▸ hmade, ?_⟩, hhere⟩
  intro other hother _ hnode
  by_cases hname : other = names
  · subst hname
    exact .inl (hhere hnode)
  · rw [htree] at hnode ⊢
    rcases hothers (root ++ other) with hsame | hnew
    · rw [hsame]
      exact hkept other hother hname hnode
    · rw [hnew]
      exact .inl hmode

theorem Inv.settle {later' : List String → Prop} {isDirectory : Prop}
    (h : Inv root start links dirs later (fun _ ↦ False) disk)
    (hlater : ∀ way, later way → later' way ∨ isDirectory ∧ way = names)
    (hmade : isDirectory → names ≠ [] → ¬ links names →
      disk.tree.node (root ++ names) = some .directory)
    (hmode : isDirectory → names ≠ [] → disk.tree.node (root ++ names) = some .file ∨
      disk.tree.node (root ++ names) = some .directory → Private (disk.mode (root ++ names))) :
    Inv root start links dirs later' (fun _ ↦ False) disk := by
  refine ⟨h.outside, h.base, h.confined, ?_, ?_⟩
  · intro way hdirs hlinks
    rcases h.made way hdirs hlinks with hcomes | hnode
    · rcases hlater way hcomes with hstill | ⟨hkind, rfl⟩
      · exact .inl hstill
      · by_cases hempty : way = []
        · subst hempty
          rw [List.append_nil]
          exact .inr h.base
        · exact .inr (hmade hkind hempty hlinks)
    · exact .inr hnode
  · intro place hplace hdirty hnode
    rcases h.kept place hplace hdirty hnode with hprivate | ⟨hdirectory, hcomes⟩
    · exact .inl hprivate
    · rcases hlater place hcomes with hstill | ⟨hkind, rfl⟩
      · exact .inr ⟨hdirectory, hstill⟩
      · exact .inl (hmode hkind hplace hnode)

end Steps

/-! ## Entries -/

/-- What holds when a part ended well. -/
def Ends (P : Disk → Prop) (result : Except PackageError Unit) (disk : Disk) : Prop :=
  result = .ok () → P disk

theorem private_policyMode (published : Nat) : Private (policyMode published) := by
  rw [policyMode, Private]
  split_ifs <;> decide

section Entries

variable {into : Path} {root : List String} {disk : Disk} {P R : Disk → Prop}

theorem wp_then {p q : Extract Unit} (hp : (unpacking into root).wp p (Ends P) disk)
    (hq : ∀ next, P next → (unpacking into root).wp q (Ends R) next) :
    (unpacking into root).wp (p >>= fun _ ↦ q) (Ends R) disk :=
  Contract.wp_seq hp (fun _ next h ↦ hq next (h rfl)) fun _ _ _ hnone ↦ nomatch hnone

theorem wp_call_then {α : Type} {c : ExtractCall} {hc : c.answer = Except String α}
    {wrap : String → PackageError} {f : α → Extract Unit}
    (hrequires : (unpacking into root).requires disk c)
    (h : ∀ a value next, cast hc a = .ok value → (unpacking into root).steps disk c a next →
      (unpacking into root).wp (f value) (Ends P) next) :
    (unpacking into root).wp (call c hc wrap >>= f) (Ends P) disk := by
  refine (Contract.wp_bind _ _).mpr ((Contract.wp_bind _ _).mpr ⟨hrequires, fun a next hstep ↦ ?_⟩)
  show (unpacking into root).wp (.ofExcept wrap (cast hc a)) _ next
  cases hvalue : cast hc a with
  | ok value => exact h a value next hvalue hstep
  | error e => exact fun hnone ↦ nomatch hnone

theorem wp_call {c : ExtractCall} {hc : c.answer = Except String Unit}
    {wrap : String → PackageError} (hrequires : (unpacking into root).requires disk c)
    (h : ∀ a next, cast hc a = .ok () → (unpacking into root).steps disk c a next → P next) :
    (unpacking into root).wp (call c hc wrap) (Ends P) disk := by
  refine (Contract.wp_bind _ _).mpr ⟨hrequires, fun a next hstep ↦ ?_⟩
  show (unpacking into root).wp (.ofExcept wrap (cast hc a)) _ next
  cases hvalue : cast hc a with
  | ok value => exact fun _ ↦ h a next hvalue hstep
  | error e => exact fun hnone ↦ nomatch hnone

theorem join_injective {a b : List String} (h : into.join a = into.join b) : a = b := by
  have hmap := List.append_cancel_left h
  exact List.map_injective_iff.mpr (fun x y hxy ↦ PathComponent.normal.inj hxy) hmap

variable {start : Disk} {links dirs later : List String → Prop} {names : List String}

theorem applyModePolicy_wp (mode : Nat)
    (hinv : Inv root start links dirs later (· = names) disk)
    (hplain : ∀ way, way ≠ [] → way <+: names → way ≠ names → ¬ links way) :
    (unpacking into root).wp (applyModePolicy (into.join names) (some mode))
      (Ends fun next ↦ next.tree = disk.tree ∧
        Inv root start links dirs later (fun _ ↦ False) next ∧
        (next.tree.node (root ++ names) = some .file ∨
          next.tree.node (root ++ names) = some .directory →
            Private (next.mode (root ++ names)))) disk := by
  refine wp_call trivial fun a next hok hstep ↦ ?_
  obtain ⟨other, place, hjoin, hwalk, htree, hset, hothers⟩ := hstep hok
  obtain rfl := join_injective hjoin
  exact ⟨htree, hinv.setPermissions (private_policyMode mode) hplain hwalk htree hset hothers⟩

end Entries

section Tar

variable {into : Path} {root : List String} {start disk : Disk}
  {entries rest : List (Except String TarEntry)} {entry : TarEntry}

theorem directoriesOf_cons (way : List String) (h : directoriesOf (.ok entry :: rest) way) :
    directoriesOf rest way ∨ entry.kind = .directory ∧ way = entry.names := by
  obtain ⟨other, hother, hkind, rfl⟩ := h
  rcases List.mem_cons.mp hother with heq | hmem
  · cases heq
    exact .inr ⟨hkind, rfl⟩
  · exact .inl ⟨other, hmem, hkind, rfl⟩

theorem harmless_of_checked {dirs later dirty : List String → Prop}
    (hplain : PlainTar into entries)
    (hentry : .ok entry ∈ entries)
    (hinv : Inv root start (linksOf entries) dirs later dirty disk)
    (hchecked : entry.kind = .symlink ∨ entry.kind = .link → ∃ target,
      entry.linkName = .ok (some target) ∧
      resolveLinkTarget into (into.join entry.names) entry.kind target entry.display = .ok ()) :
    Harmless root entry disk := by
  intro path parent hpath hparent
  have hnames : entry.names = path.names := by rw [TarEntry.names, hpath]
  rw [← hnames] at hparent
  have hfound : parent = root ++ entry.names.dropLast := by
    refine walk_names hinv.confined (fun way hway hle ↦ ?_) hparent
    have hbelow : way <+: entry.names := hle.trans (List.dropLast_prefix _)
    refine (hplain.names entry hentry way hway hbelow fun heq ↦ ?_).1
    have hlength := hle.length_le
    rw [heq, List.length_dropLast] at hlength
    have hpos : 0 < entry.names.length := by
      rw [← heq]
      exact List.length_pos_of_ne_nil hway
    omega
  rw [hfound]
  refine ⟨List.prefix_append _ _, fun target htarget ↦ ⟨fun hkind answer hwalk ↦ ?_,
    fun hkind answer hwalk ↦ ?_⟩⟩
  · obtain ⟨other, hother, haccepted⟩ := hchecked (.inl hkind)
    rw [htarget] at hother
    cases hother
    rw [hkind] at haccepted
    exact hwalk.beneath hinv.confined (hplain.symlinks entry target hentry hkind htarget haccepted)
  · obtain ⟨other, hother, haccepted⟩ := hchecked (.inr hkind)
    rw [htarget] at hother
    cases hother
    rw [hkind] at haccepted
    have hwalk : Walk disk.tree false (root ++ []) target.steps answer := by simpa using hwalk
    exact hwalk.beneath hinv.confined
      (hplain.links entry target hentry hkind htarget haccepted).tame

theorem private_of_masked {mode : Nat} (h : mode &&& (0o077 ||| 0o7000) = 0) : Private mode := h

theorem Inv.unpack {later : List String → Prop} {next : Disk}
    (hplain : PlainTar into entries) (hentry : .ok entry ∈ entries)
    (hinv : Inv root start (linksOf entries) (directoriesOf entries) later (fun _ ↦ False) disk)
    (hchecked : entry.kind = .symlink ∨ entry.kind = .link → ∃ target,
      entry.linkName = .ok (some target) ∧
      resolveLinkTarget into (into.join entry.names) entry.kind target entry.display = .ok ())
    (h : Unpacked root entry false 0o077 disk next) :
    (entry.kind = .symlink ∨ entry.kind = .link → Inv root start (linksOf entries)
        (directoriesOf entries) later (fun _ ↦ False) next) ∧
      Inv root start (linksOf entries) (directoriesOf entries) later (· = entry.names) next ∧
      (entry.kind = .directory → ¬ linksOf entries entry.names →
        next.tree.node (root ++ entry.names) = some .directory) := by
  obtain ⟨path, front, name, made, parent, hpath, hfront, hway, hwalk, -, helse, hcreates⟩ := h
  have hnames : entry.names = front ++ [name] := by
    rw [← hfront, TarEntry.names, hpath]
  have hne : entry.names ≠ [] := by simp [hnames]
  -- the way to the entry is made of directories of the archive
  have habove : ∀ way, way ≠ [] → way <+: front →
      ¬ linksOf entries way ∧ directoriesOf entries way := by
    intro way hway hle
    refine hplain.names entry hentry way hway (hnames ▸ hle.trans (List.prefix_append _ _)) ?_
    intro heq
    have hlength := hle.length_le
    rw [heq, hnames, List.length_append, List.length_singleton] at hlength
    omega
  obtain ⟨hmade, -⟩ := hinv.makesWay hway habove
  have hparent := walk_names hmade.confined (fun way hne hle ↦ (habove way hne hle).1) hwalk
  rw [hparent, List.append_assoc, ← hnames] at helse hcreates
  have hdirty (hlink : ∀ base target,
      next.tree.node (root ++ entry.names) = some (.link base target) →
        linksOf entries entry.names ∧ base = none ∧
          Tame (linksOf entries) entry.names.dropLast target)
      (hdirectory : made.tree.node (root ++ entry.names) = some .directory →
        next.tree.node (root ++ entry.names) = some .directory) :
      Inv root start (linksOf entries) (directoriesOf entries) later (· = entry.names) next := by
    have hmore : Inv root start (linksOf entries) (directoriesOf entries) later
        (· = entry.names) made :=
      ⟨hmade.outside, hmade.base, hmade.confined, hmade.made,
        fun place hplace _ ↦ hmade.kept place hplace id⟩
    exact hmore.elsewhere hne helse (fun _ ↦ private_of_masked) hlink hdirectory (.inl rfl)
  cases hkind : entry.kind with
  | symlink =>
    rw [hkind] at hcreates
    obtain ⟨target, htarget, hnot, hnode⟩ := hcreates
    obtain ⟨other, hother, haccepted⟩ := hchecked (.inl hkind)
    rw [htarget] at hother
    cases hother
    rw [hkind] at haccepted
    have habsolute : target.isAbsolute = false := by
      rw [resolveLinkTarget] at haccepted
      by_contra h
      rw [if_pos (by simpa using h)] at haccepted
      cases haccepted
    have hlink : ∀ base steps,
        next.tree.node (root ++ entry.names) = some (.link base steps) →
          linksOf entries entry.names ∧ base = none ∧
            Tame (linksOf entries) entry.names.dropLast steps := by
      intro base steps hlink
      rw [hnode, linkNode, habsolute] at hlink
      cases hlink
      exact ⟨⟨hne, entry, hentry, hkind, rfl⟩, rfl,
        hplain.symlinks entry target hentry hkind htarget haccepted⟩
    refine ⟨fun _ ↦ ?_, hdirty hlink fun h ↦ absurd h hnot, fun hnone ↦ by simp at hnone⟩
    refine hmade.elsewhere hne helse (fun _ ↦ private_of_masked) hlink
      (fun h ↦ absurd h hnot) (.inr ?_)
    rintro (hfile | hfile) <;> simp [hnode, linkNode] at hfile
  | link =>
    rw [hkind] at hcreates
    obtain ⟨target, source, htarget, hsource, hnot, hplace, hnode, hmode⟩ := hcreates
    obtain ⟨other, hother, haccepted⟩ := hchecked (.inr hkind)
    rw [htarget] at hother
    cases hother
    rw [hkind] at haccepted
    -- a second name of what is no link
    have havoids := hplain.links entry target hentry hkind htarget haccepted
    have hwalk : Walk made.tree false (root ++ []) target.steps (.found source) := by
      simpa using hsource
    have hfound := hwalk.leads hmade.confined havoids
    have hlink : ∀ base steps,
        next.tree.node (root ++ entry.names) = some (.link base steps) →
          linksOf entries entry.names ∧ base = none ∧
            Tame (linksOf entries) entry.names.dropLast steps := by
      intro base steps hlink
      rw [hnode, hfound] at hlink
      refine absurd (hmade.confined.link _ _ _ hlink).1 (havoids.clear ?_ _ List.prefix_rfl)
      intro way hway hlinks
      rw [List.prefix_nil] at hway
      exact hlinks.1 hway
    refine ⟨fun _ ↦ ?_, hdirty hlink fun h ↦ absurd h hnot, fun hnone ↦ by simp at hnone⟩
    refine hmade.elsewhere hne helse (fun _ ↦ private_of_masked) hlink
      (fun h ↦ absurd h hnot) (.inr ?_)
    rintro (hfile | hdirectory)
    · rw [hnode, hfound] at hfile
      have hsome : written [] target.steps ≠ [] := by
        intro hempty
        rw [hempty, List.append_nil, hmade.base] at hfile
        cases hfile
      rcases hmade.kept _ hsome id (.inl hfile) with hprivate | ⟨hdirectory, -⟩
      · rw [hmode, hfound]
        exact hprivate
      · rw [hfile] at hdirectory
        cases hdirectory
    · exact absurd (hnode ▸ hdirectory) hplace
  | directory | other =>
    all_goals
      rw [hkind] at hcreates
      obtain ⟨hnode, hmust⟩ := hcreates
      have hlink : ∀ base steps,
          next.tree.node (root ++ entry.names) = some (.link base steps) →
            linksOf entries entry.names ∧ base = none ∧
              Tame (linksOf entries) entry.names.dropLast steps := by
        intro base steps hlink
        rcases hnode with hsame | ⟨-, hnew⟩ | ⟨-, hnew⟩
        · exact hmade.confined.link _ _ _ (hsame ▸ hlink)
        · simp [hnew] at hlink
        · simp [hnew] at hlink
      have hdirectory : made.tree.node (root ++ entry.names) = some .directory →
          next.tree.node (root ++ entry.names) = some .directory := by
        intro hthere
        rcases hnode with hsame | ⟨hnone, -⟩ | ⟨hnot, -⟩
        · exact hsame.trans hthere
        · simp [hthere] at hnone
        · exact absurd hthere hnot
      refine ⟨fun hnone ↦ by simp at hnone, hdirty hlink hdirectory, fun hkind hlinks ↦ ?_⟩
      rcases hmust (by assumption) with hthere | ⟨base, steps, hthere⟩
      · exact hthere
      · exact absurd (hlink base steps hthere).1 hlinks

theorem tarEntry_wp (hplain : PlainTar into entries) (hentry : .ok entry ∈ entries)
    (hinv : Inv root start (linksOf entries) (directoriesOf entries)
      (directoriesOf (.ok entry :: rest)) (fun _ ↦ False) disk) :
    (unpacking into root).wp (tarEntry into entry)
      (Ends (Inv root start (linksOf entries) (directoriesOf entries) (directoriesOf rest)
        fun _ ↦ False)) disk := by
  rw [tarEntry]
  cases hchecks : tarChecks into entry with
  | error e => exact fun hnone ↦ nomatch hnone
  | ok checked =>
    cases checked with
    | none =>
      have hempty := tarChecks_none hchecks
      exact fun _ ↦ hinv.settle directoriesOf_cons (fun _ hne ↦ absurd hempty hne)
        fun _ hne ↦ absurd hempty hne
    | some checked =>
      obtain ⟨destination, mode⟩ := checked
      obtain ⟨hne, rfl, hlinked⟩ := tarChecks_ok hchecks
      refine wp_call_then (harmless_of_checked hplain hentry hinv hlinked) ?_
      intro a unpacked next hvalue hstep
      cases unpacked with
      | false => exact fun hnone ↦ nomatch hnone
      | true =>
        obtain ⟨hclean, hdirty, hmade⟩ := hinv.unpack hplain hentry hlinked (hstep hvalue)
        have habove : ∀ way, way ≠ [] → way <+: entry.names → way ≠ entry.names →
            ¬ linksOf entries way :=
          fun way hway hle hother ↦ (hplain.names entry hentry way hway hle hother).1
        show Contract.wp _ (ite _ _ _) _ _
        rw [if_neg (by simp)]
        by_cases hkind : entry.kind = .symlink ∨ entry.kind = .link
        · rw [if_pos hkind]
          -- a link is no directory, and has no mode of its own
          have hother : entry.kind ≠ .directory := by
            rcases hkind with h | h <;> simp [h]
          exact fun _ ↦ (hclean hkind).settle directoriesOf_cons
            (fun h ↦ absurd h hother) fun h ↦ absurd h hother
        · rw [if_neg hkind]
          obtain ⟨intended, hintended⟩ : ∃ intended,
              intendedMode (decide (entry.kind = .directory)) (some mode) =
                some intended := by
            rw [intendedMode]
            split_ifs <;> exact ⟨_, rfl⟩
          rw [hintended]
          refine Contract.wp_mono (applyModePolicy_wp intended hdirty habove) ?_
          intro result last hlast hok
          obtain ⟨htree, hinv, hmode⟩ := hlast hok
          refine hinv.settle directoriesOf_cons (fun hdirectory _ hlinks ↦ ?_)
            fun _ _ ↦ hmode
          rw [htree]
          exact hmade hdirectory hlinks

theorem extractTarGz_wp (hplain : PlainTar into entries)
    (hrest : ∀ entry, .ok entry ∈ rest → .ok entry ∈ entries)
    (hinv : Inv root start (linksOf entries) (directoriesOf entries) (directoriesOf rest)
      (fun _ ↦ False) disk) :
    (unpacking into root).wp (extractTarGz into rest)
      (Ends (Inv root start (linksOf entries) (directoriesOf entries) (directoriesOf [])
        fun _ ↦ False)) disk := by
  induction rest generalizing disk with
  | nil => exact fun _ ↦ hinv
  | cons first rest ih =>
    cases first with
    | error detail => exact fun hnone ↦ nomatch hnone
    | ok entry =>
      refine wp_then (tarEntry_wp hplain (hrest entry List.mem_cons_self) hinv) ?_
      exact fun next hnext ↦ ih (fun other hother ↦ hrest other (List.mem_cons_of_mem _ hother))
        hnext

end Tar

section Zip

variable {into : Path} {root : List String} {start disk : Disk}
  {entries rest : List (Except String ZipEntry)} {entry : ZipEntry}

theorem Inv.smudge {links dirs later dirty : List String → Prop}
    (h : Inv root start links dirs later (fun _ ↦ False) disk) :
    Inv root start links dirs later dirty disk :=
  ⟨h.outside, h.base, h.confined, h.made, fun place hplace _ ↦ h.kept place hplace id⟩

theorem zipDirectoriesOf_cons (way : List String) (h : zipDirectoriesOf (.ok entry :: rest) way) :
    zipDirectoriesOf rest way ∨ entry.isDir = true ∧ way = entry.names := by
  obtain ⟨other, hother, hkind, rfl⟩ := h
  rcases List.mem_cons.mp hother with heq | hmem
  · cases heq
    exact .inr ⟨hkind, rfl⟩
  · exact .inl ⟨other, hmem, hkind, rfl⟩

theorem join_parent {names : List String} (h : names ≠ []) :
    (into.join names).parent = some (into.join names.dropLast) := by
  obtain ⟨front, name, rfl⟩ := List.eq_nil_or_concat names |>.resolve_left h
  have hpath : into.join (front ++ [name]) = into.join front ++ [.normal name] := by
    simp [Path.join]
  rw [List.concat_eq_append, hpath, Path.parent, List.getLast?_concat, List.dropLast_concat,
    List.dropLast_concat]

section Writing

variable {links dirs later : List String → Prop} {names : List String} {P : Disk → Prop}

theorem createDirAll_wp (hinv : Inv root start links dirs later (fun _ ↦ False) disk)
    (hplain : ∀ way, way ≠ [] → way <+: names → ¬ links way ∧ dirs way) :
    (unpacking into root).wp (createDirAll (into.join names)) (Ends fun next ↦
      Inv root start links dirs later (fun _ ↦ False) next ∧
        next.tree.node (root ++ names) = some .directory) disk := by
  refine wp_call trivial fun a next hok hstep ↦ ?_
  obtain ⟨other, place, hjoin, hway, hwalk, hnode⟩ := hstep hok
  obtain rfl := join_injective hjoin
  obtain ⟨hnext, -⟩ := hinv.makesWay hway hplain
  have hfound := walk_names hnext.confined (fun way hne hle ↦ (hplain way hne hle).1) hwalk
  exact ⟨hnext, hfound ▸ hnode⟩

/-- A file and the directories on the way to it are made; its mode is not known yet. -/
theorem writeFile_wp (hinv : Inv root start links dirs later (fun _ ↦ False) disk)
    (hnames : names ≠ []) (hlinks : ∀ way, ¬ links way)
    (hplain : ∀ way, way ≠ [] → way <+: names.dropLast → dirs way) :
    (unpacking into root).wp (writeFile (into.join names))
      (Ends (Inv root start links dirs later (· = names))) disk := by
  rw [writeFile, join_parent hnames]
  refine wp_then (createDirAll_wp hinv fun way hne hle ↦ ⟨hlinks way, hplain way hne hle⟩) ?_
  rintro made ⟨hmade, -⟩
  refine wp_call_then trivial fun a _ next hok hstep ↦ ?_
  obtain ⟨other, place, hjoin, hwalk, hnot, hfile, helse⟩ := hstep hok
  obtain rfl := join_injective hjoin
  have hconfined : next.tree.Confined root links := by
    refine ⟨fun way base target hnode ↦ ?_, fun way hway ↦ ?_⟩
    · by_cases hplace : root ++ way = place
      · rw [hplace, hfile] at hnode
        cases hnode
      · rw [helse.node _ hplace] at hnode
        exact hmade.confined.link way base target hnode
    · rw [helse.top]
      exact hmade.confined.top way hway
  have hfound := walk_names hconfined (fun way _ _ ↦ hlinks way) hwalk
  subst hfound
  have hnext : Inv root start links dirs later (· = names) next := by
    refine hmade.smudge.elsewhere hnames helse (fun _ hnone ↦ hnone.elim) ?_
      (fun h ↦ absurd h hnot) (.inl rfl)
    intro base target hlink
    rw [hfile] at hlink
    cases hlink
  refine wp_call trivial fun a last hok hstep ↦ ?_
  have hlast : last = next := hstep hok
  exact hlast ▸ hnext

end Writing

theorem zipEntry_wp (hplain : PlainZip entries) (hentry : .ok entry ∈ entries)
    (hinv : Inv root start (fun _ ↦ False) (zipDirectoriesOf entries)
      (zipDirectoriesOf (.ok entry :: rest)) (fun _ ↦ False) disk) :
    (unpacking into root).wp (zipEntry into entry)
      (Ends (Inv root start (fun _ ↦ False) (zipDirectoriesOf entries) (zipDirectoriesOf rest)
        fun _ ↦ False)) disk := by
  rw [zipEntry]
  cases hchecks : zipChecks into entry with
  | error e => exact fun hnone ↦ nomatch hnone
  | ok checked =>
    have hchecked := zipChecks_ok hchecks
    by_cases hempty : entry.names = []
    · rw [if_pos hempty] at hchecked
      subst hchecked
      exact fun _ ↦ hinv.settle zipDirectoriesOf_cons (fun _ hne ↦ absurd hempty hne)
        fun _ hne ↦ absurd hempty hne
    · rw [if_neg hempty] at hchecked
      subst hchecked
      show Contract.wp _ (ite _ _ _) _ _
      by_cases hdir : entry.isDir = true
      · rw [if_pos hdir]
        refine wp_then (createDirAll_wp hinv fun way hne hle ↦ ⟨id, ?_⟩) ?_
        · by_cases hway : way = entry.names
          · exact ⟨entry, hentry, hdir, hway.symm⟩
          · exact hplain.names entry hentry way hne hle hway
        · rintro next ⟨hnext, hnode⟩
          refine Contract.wp_mono (applyModePolicy_wp _ hnext.smudge fun _ _ _ _ ↦ id) ?_
          intro result last hlast hok
          obtain ⟨htree, hinv, hmode⟩ := hlast hok
          exact hinv.settle zipDirectoriesOf_cons (fun _ _ _ ↦ htree ▸ hnode) fun _ _ ↦ hmode
      · rw [if_neg hdir]
        refine wp_then (writeFile_wp hinv hempty (fun _ ↦ id) fun way hne hle ↦ ?_) ?_
        · refine hplain.names entry hentry way hne (hle.trans (List.dropLast_prefix _)) ?_
          intro heq
          have hlength := hle.length_le
          have hpos := List.length_pos_of_ne_nil hempty
          rw [heq, List.length_dropLast] at hlength
          omega
        · intro next hnext
          obtain ⟨published, hpublished⟩ := Option.ne_none_iff_exists'.mp
            (hplain.modes entry hentry (by simpa using hdir))
          rw [intendedMode, if_neg Bool.false_ne_true, hpublished, Option.map_some]
          refine Contract.wp_mono (applyModePolicy_wp _ hnext fun _ _ _ _ ↦ id) ?_
          intro result last hlast hok
          obtain ⟨-, hinv, -⟩ := hlast hok
          exact hinv.settle zipDirectoriesOf_cons (fun h ↦ absurd h hdir) fun h ↦ absurd h hdir

theorem extractZip_wp (hplain : PlainZip entries)
    (hrest : ∀ entry, .ok entry ∈ rest → .ok entry ∈ entries)
    (hinv : Inv root start (fun _ ↦ False) (zipDirectoriesOf entries) (zipDirectoriesOf rest)
      (fun _ ↦ False) disk) :
    (unpacking into root).wp (extractZip into rest)
      (Ends (Inv root start (fun _ ↦ False) (zipDirectoriesOf entries) (zipDirectoriesOf [])
        fun _ ↦ False)) disk := by
  induction rest generalizing disk with
  | nil => exact fun _ ↦ hinv
  | cons first rest ih =>
    cases first with
    | error detail => exact fun hnone ↦ nomatch hnone
    | ok entry =>
      refine wp_then (zipEntry_wp hplain (hrest entry List.mem_cons_self) hinv) ?_
      exact fun next hnext ↦ ih (fun other hother ↦ hrest other (List.mem_cons_of_mem _ hother))
        hnext

end Zip

/-! ## Containment -/

section Contained

variable {into : Path} {root : List String} {start disk next : Disk}
  {links dirs : List String → Prop}

theorem Fresh.inv (h : Fresh root start) (hway : MakesWay root [] start disk)
    (hbase : disk.tree.node root = some .directory) :
    Inv root start links dirs dirs (fun _ ↦ False) disk := by
  have hsame : ∀ place, place ≠ root → disk.tree.node place = start.tree.node place := by
    intro place hplace
    rcases hway.made place with hsame | ⟨-, -, way, hle, hwalk⟩
    · exact hsame.1
    · obtain rfl := List.prefix_nil.mp hle
      cases hwalk
      exact absurd rfl hplace
  have hnone : ∀ place, place ≠ [] → disk.tree.node (root ++ place) = none :=
    fun place hplace ↦ (hsame _ (by simpa using hplace)).trans (h.empty place hplace)
  refine ⟨?_, hbase, ⟨?_, ?_⟩, fun way hdirs _ ↦ .inl hdirs, ?_⟩
  · intro place houtside
    exact hsame place fun heq ↦ houtside (heq ▸ List.prefix_rfl)
  · intro place base target hnode
    by_cases hplace : place = []
    · rw [hplace, List.append_nil, hbase] at hnode
      cases hnode
    · rw [hnone place hplace] at hnode
      cases hnode
  · intro place hplace
    rw [hway.top]
    exact h.top place hplace
  · intro place hplace _ hnode
    simp [hnone place hplace] at hnode

theorem Inv.contained {later : List String → Prop}
    (h : Inv root start links dirs later (fun _ ↦ False) disk) (hlater : ∀ way, ¬ later way) :
    Contained root start disk := by
  refine ⟨h.outside, ?_, ?_⟩
  · rintro _ base target ⟨place, rfl⟩ hnode answer hwalk
    obtain ⟨-, rfl, htarget⟩ := h.confined.link place base target hnode
    have hplace : place ≠ [] := by
      rintro rfl
      rw [List.append_nil, h.base] at hnode
      cases hnode
    rw [Option.getD_none, List.dropLast_append_of_ne_nil hplace] at hwalk
    exact hwalk.beneath h.confined htarget
  · rintro _ ⟨place, rfl⟩ hne hnode
    rcases h.kept place (by simpa using hne) id hnode with hprivate | ⟨-, hcomes⟩
    · exact hprivate
    · exact absurd hcomes (hlater place)

/-- Extraction of an archive whose text says what its links mean puts nothing outside the root,
leaves no link that leads out and no mode for anyone else. No entry that would is handed to `tar`,
and every entry that is refused is refused as unsafe. -/
theorem extract_contained {archive : Archive} (hplain : archive.Plain into)
    (hfresh : Fresh root start) :
    (unpacking into root).wp (extract into archive) (Ends (Contained root start)) start ∧
      archive.RefusesUnsafe into := by
  refine ⟨?_, refusesUnsafe into archive⟩
  refine wp_call_then trivial fun a _ disk hok hstep ↦ ?_
  obtain ⟨names, place, hjoin, hway, hwalk, hnode⟩ := hstep hok
  have hnames : names = [] := by simpa [Path.join] using hjoin
  subst hnames
  cases hwalk
  cases archive with
  | unreadable error =>
    intro hnone
    cases hnone
  | zip entries =>
    refine Contract.wp_mono (extractZip_wp hplain (fun _ h ↦ h) (hfresh.inv hway hnode)) ?_
    exact fun _ next hlast hok ↦ (hlast hok).contained (by simp [zipDirectoriesOf])
  | tarGz entries =>
    refine Contract.wp_mono (extractTarGz_wp hplain (fun _ h ↦ h) (hfresh.inv hway hnode)) ?_
    exact fun _ next hlast hok ↦ (hlast hok).contained (by simp [directoriesOf])

end Contained

section Archives

/-- A disk on which everything is private. -/
def diskOf (nodes : List (List String × Node String)) : Disk where
  tree :=
    { node := fun place ↦ nodes.lookup place
      searchable := fun _ ↦ true
      top := fun _ ↦ false }
  mode _ := 0o700

/-- A disk with nothing but its own root. -/
def bare : List (List String × Node String) := [([], .directory)]

/-- The directory a package is extracted into. -/
def staging : Path := [.rootDir, .normal "srv"]

def directoryEntry (names : List String) : TarEntry :=
  ⟨.ok (names.map .normal), "/".intercalate names, .directory, .ok 0o755, .ok none⟩

def symlinkEntry (names : List String) (target : Path) : TarEntry :=
  ⟨.ok (names.map .normal), "/".intercalate names, .symlink, .ok 0o777, .ok (some target)⟩

/-- A directory, a file in it and a link to that. -/
def plainPackage : List (Except String TarEntry) :=
  [.ok (directoryEntry ["bin"]),
    .ok ⟨.ok [.normal "bin", .normal "run.sh"], "bin/run.sh", .other 48, .ok 0o755, .ok none⟩,
    .ok (symlinkEntry ["run"] [.normal "bin", .normal "run.sh"])]

/-- A link to the root, and a link that climbs through it. -/
def composedPackage : List (Except String TarEntry) :=
  [.ok (directoryEntry ["d"]), .ok (symlinkEntry ["d", "up"] [.parentDir]),
    .ok (symlinkEntry ["esc"] [.normal "d", .normal "up", .parentDir])]

theorem fresh_bare : Fresh ["srv"] (diskOf bare) := by
  refine ⟨.inl rfl, fun place _ ↦ ?_, fun _ _ ↦ rfl⟩
  simp [diskOf, bare, List.lookup_cons]

theorem plainPackage_contained :
    (unpacking staging ["srv"]).wp (extract staging (.tarGz plainPackage))
      (Ends (Contained ["srv"] (diskOf bare))) (diskOf bare) ∧
    (Archive.tarGz plainPackage).RefusesUnsafe staging := by
  have hlinks : ∀ way, linksOf plainPackage way → way = ["run"] := by
    rintro way ⟨-, entry, hentry, hkind, rfl⟩
    simp only [plainPackage, List.mem_cons, Except.ok.injEq, List.not_mem_nil, or_false] at hentry
    rcases hentry with rfl | rfl | rfl
    · cases hkind
    · cases hkind
    · rfl
  have hsingle : ∀ {name : String} {way : List String}, way ≠ [] → way <+: [name] →
      way = [name] := by
    intro name way hne hle
    obtain ⟨rest, rfl, hrest⟩ := (List.prefix_cons_iff.mp hle).resolve_left hne
    rw [List.prefix_nil.mp hrest]
  have hbin : directoriesOf plainPackage ["bin"] :=
    ⟨directoryEntry ["bin"], by simp [plainPackage], rfl, rfl⟩
  refine extract_contained ⟨?_, ?_, ?_⟩ fresh_bare
  · intro entry hentry way hne hle hother
    simp only [plainPackage, List.mem_cons, Except.ok.injEq, List.not_mem_nil, or_false] at hentry
    have hway : way = ["bin"] := by
      rcases hentry with rfl | rfl | rfl
      · exact absurd (hsingle hne hle) hother
      · obtain ⟨rest, rfl, hrest⟩ := (List.prefix_cons_iff.mp hle).resolve_left hne
        by_cases hempty : rest = []
        · rw [hempty]
        · rw [hsingle hempty hrest] at hother
          exact absurd rfl hother
      · exact absurd (hsingle hne hle) hother
    rw [hway]
    exact ⟨fun h ↦ by simpa using hlinks _ h, hbin⟩
  · intro entry target hentry hkind htarget _
    simp only [plainPackage, List.mem_cons, Except.ok.injEq, List.not_mem_nil, or_false] at hentry
    rcases hentry with rfl | rfl | rfl
    · cases hkind
    · cases hkind
    · cases htarget
      exact Tame.of_names ["bin", "run.sh"]
  · intro entry target hentry hkind
    simp only [plainPackage, List.mem_cons, Except.ok.injEq, List.not_mem_nil, or_false] at hentry
    rcases hentry with rfl | rfl | rfl <;> cases hkind

theorem elsewhere_put {allowed : Nat → Prop} (place : List String) (node : Node String)
    (nodes : List (List String × Node String)) :
    Elsewhere place allowed (diskOf nodes) (diskOf ((place, node) :: nodes)) := by
  refine ⟨rfl, fun other hother ↦ ?_, fun _ _ ↦ .inl rfl⟩
  have hne : (other == place) = false := by simpa using hother
  simp only [diskOf, List.lookup_cons, hne]

/-- Links that are each accepted lead out of the root when they are read one after the other. -/
theorem links_compose : Fresh ["srv"] (diskOf bare) ∧ ∃ last,
    (unpacking staging ["srv"]).Runs (extract staging (.tarGz composedPackage)) (diskOf bare)
      (.done (.ok ())) last ∧ ¬ Contained ["srv"] (diskOf bare) last := by
  have hway : ∀ names nodes, MakesWay ["srv"] names (diskOf nodes) (diskOf nodes) :=
    fun _ _ ↦ ⟨rfl, fun _ ↦ .inl ⟨rfl, rfl⟩⟩
  refine ⟨fresh_bare, diskOf ((["srv", "esc"], .link none [.normal "d", .normal "up", .parent]) ::
    (["srv", "d", "up"], .link none [.parent]) :: (["srv", "d"], .directory) ::
    (["srv"], .directory) :: bare), ?_, ?_⟩
  · refine .of_ask (.createDirAll staging) (Except.ok () : Except String Unit) rfl
      (t := diskOf ((["srv"], .directory) :: bare)) ?_ ?_
    · refine fun _ ↦ ⟨[], ["srv"], rfl, ⟨rfl, fun place ↦ ?_⟩, .done _, rfl⟩
      by_cases hplace : place = ["srv"]
      · subst hplace
        exact .inr ⟨rfl, rfl, [], List.prefix_rfl, .done _⟩
      · have hnode : (diskOf ((["srv"], .directory) :: bare)).tree.node place =
            (diskOf bare).tree.node place :=
          (@elsewhere_put (fun _ ↦ False) ["srv"] .directory bare).node place hplace
        exact .inl ⟨hnode, rfl⟩
    refine .of_ask (.unpackIn (directoryEntry ["d"]) false 0o077)
      (Except.ok true : Except String Bool) rfl
      (t := diskOf ((["srv", "d"], .directory) :: (["srv"], .directory) :: bare)) ?_ ?_
    · exact fun _ ↦ ⟨_, [], "d", _, ["srv"], rfl, rfl, hway _ _, .done _, List.prefix_rfl,
        elsewhere_put _ _ _, .inr (.inl ⟨rfl, rfl⟩), fun _ ↦ .inl rfl⟩
    refine .of_ask (.setPermissions (staging.join ["d"]) 0o700)
      (Except.ok () : Except String Unit) rfl
      (t := diskOf ((["srv", "d"], .directory) :: (["srv"], .directory) :: bare)) ?_ ?_
    · exact fun _ ↦ ⟨["d"], ["srv", "d"], rfl, .directory ⟨rfl, rfl⟩ rfl (.done _), rfl, rfl,
        fun _ ↦ .inl rfl⟩
    refine .of_ask (.unpackIn (symlinkEntry ["d", "up"] [.parentDir]) false 0o077)
      (Except.ok true : Except String Bool) rfl
      (t := diskOf ((["srv", "d", "up"], .link none [.parent]) :: (["srv", "d"], .directory) ::
        (["srv"], .directory) :: bare)) ?_ ?_
    · exact fun _ ↦ ⟨_, ["d"], "up", _, ["srv", "d"], rfl, rfl, hway _ _,
        .directory ⟨rfl, rfl⟩ rfl (.done _), by decide, elsewhere_put _ _ _, _, rfl,
        (fun hnone ↦ nomatch hnone), rfl⟩
    refine .of_ask (.unpackIn (symlinkEntry ["esc"] [.normal "d", .normal "up", .parentDir]) false
      0o077) (Except.ok true : Except String Bool) rfl ?_ (.cut _ _)
    exact fun _ ↦ ⟨_, [], "esc", _, ["srv"], rfl, rfl, hway _ _, .done _, List.prefix_rfl,
      elsewhere_put _ _ _, _, rfl, (fun hnone ↦ nomatch hnone), rfl⟩
  · intro hcontained
    have hout := hcontained.links ["srv", "esc"] none [.normal "d", .normal "up", .parent]
      (by decide) rfl (.found []) ?_
    · exact absurd hout (by decide)
    · -- `d`, then `up` back to the root, and from there above it
      refine .directory ⟨rfl, rfl⟩ rfl (.followed ⟨rfl, rfl⟩ rfl (.inl rfl) ?_)
      exact .up ⟨rfl, rfl⟩ (.up ⟨rfl, rfl⟩ (.done _))

end Archives

end RunnerManager.Agent.Package
