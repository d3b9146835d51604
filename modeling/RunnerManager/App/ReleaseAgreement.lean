import RunnerManager.App.ReleaseSums

/-!
# Where the readers of `SHA256SUMS` agree

`update.rs` and `install.sh` promise to read a release alike. `readers_agree_iff` says on which
documents they do, and `select_exact_eq` that `select_exact_release` follows `update` on all.
-/

namespace RunnerManager.App.ReleaseSums

open RunnerManager.Text RunnerManager.Fields RunnerManager.Lines
open RunnerManager.Github (readDigits readU64)

variable {target : LinuxTarget} {line digest name : List Char}

/-! ## What a line looks like to each reader -/

/-- To `update`: 64 hexadecimal digits and a name, and whitespace between, before and after. -/
def UpdateLine (line digest name : List Char) : Prop :=
  ∃ before gap after, line = before ++ digest ++ gap ++ name ++ after ∧
    (∀ c ∈ before, isWhitespace c = true) ∧ (∀ c ∈ gap, isWhitespace c = true) ∧
    (∀ c ∈ after, isWhitespace c = true) ∧ gap ≠ [] ∧
    (name ≠ [] ∧ ∀ c ∈ name, isWhitespace c = false) ∧
    digest.length = 64 ∧ ∀ c ∈ digest, isAsciiHexdigit c = true

/-- To `install.sh`, less one carriage return: 64 lower-case hexadecimal digits, spaces or tabs,
and a name, that may be empty. -/
def InstallerLine (line digest name : List Char) : Prop :=
  ∃ gap, stripReturn line = digest ++ gap ++ name ∧ gap ≠ [] ∧ (∀ c ∈ gap, isBlank c = true) ∧
    (∀ c ∈ name, isBlank c = false) ∧ digest.length = 64 ∧ ∀ c ∈ digest, isLowerHexdigit c = true

/-- Every number of a version is digits only and fits 64 bits. -/
def PlainVersion (version : List Char) : Prop :=
  ∀ number ∈ version.splitOn '.', ∃ n, readDigits number = some n ∧ n < 2 ^ 64

/-- A line that both readers read or neither, and if either takes its name for an archive of the
target, then both see that name and its version is plain. -/
structure SpelledAlike (target : LinuxTarget) (line : List Char) : Prop where
  readable : (∃ digest name, UpdateLine line digest name) ↔
    ∃ digest name, InstallerLine line digest name
  archive : ∀ digest name other version, UpdateLine line digest name →
    (∃ digest, InstallerLine line digest other) →
    versionOfAsset target.host (bareName name) = some version ∨
      installerVersion target (bareName other) = some version →
    bareName other = bareName name ∧ PlainVersion version

/-! ## Characters -/

theorem hexdigit_plain {c : Char} (hc : isAsciiHexdigit c = true) :
    c.utf8Size = 1 ∧ isWhitespace c = false :=
  ascii_induction (P := fun c ↦ isAsciiHexdigit c = true →
    c.utf8Size = 1 ∧ isWhitespace c = false) (by decide) (hexdigit_ascii hc) hc

theorem hexdigit_of_lower {c : Char} (hc : isLowerHexdigit c = true) :
    isAsciiHexdigit c = true := by
  simp only [isLowerHexdigit, isAsciiHexdigit, Bool.or_eq_true] at hc ⊢
  exact .inl hc

theorem blank_whitespace {c : Char} (hc : isBlank c = true) : isWhitespace c = true := by
  simp only [isBlank, Bool.or_eq_true, beq_iff_eq] at hc
  obtain rfl | rfl := hc <;> decide

theorem foldAscii_lower (h : ∀ c ∈ digest, isLowerHexdigit c = true) :
    foldAscii digest = digest := by
  refine (List.map_congr_left fun c hc ↦ ?_).trans (List.map_id digest)
  have hlower := h c hc
  exact ascii_induction (P := fun c ↦ isLowerHexdigit c = true → c.toLower = c)
    (by decide) (hexdigit_ascii (hexdigit_of_lower hlower)) hlower

theorem byteLen_digest (h : ∀ c ∈ digest, isAsciiHexdigit c = true) :
    byteLen digest = digest.length := by
  rw [byteLen, List.map_congr_left fun c hc ↦ (hexdigit_plain (h c hc)).1]
  simp

/-! ## The readings of a line -/

theorem update_line_iff : UpdateLine line digest name ↔
    words isWhitespace line = [digest, name] ∧ byteLen digest = 64 ∧
      digest.all isAsciiHexdigit = true := by
  rw [words_pair_iff]
  constructor
  · rintro ⟨before, gap, after, hline, hbefore, hgap, hafter, hnil, hname, hlength, hhex⟩
    refine ⟨⟨before, gap, after, hline, hbefore, hgap, hafter, hnil, ⟨?_, ?_⟩, hname⟩, ?_, ?_⟩
    · exact List.ne_nil_of_length_eq_add_one (hlength.trans rfl)
    · exact fun c hc ↦ (hexdigit_plain (hhex c hc)).2
    · rw [byteLen_digest hhex, hlength]
    · simpa using hhex
  · rintro ⟨⟨before, gap, after, hline, hbefore, hgap, hafter, hnil, -, hname⟩, hlength, hhex⟩
    have hhex : ∀ c ∈ digest, isAsciiHexdigit c = true := by simpa using hhex
    rw [byteLen_digest hhex] at hlength
    exact ⟨before, gap, after, hline, hbefore, hgap, hafter, hnil, hname, hlength, hhex⟩

theorem installer_line_iff : InstallerLine line digest name ↔
    fields isBlank (stripReturn line) = [digest, name] ∧ digest.length = 64 ∧
      digest.all isLowerHexdigit = true := by
  rw [fields_pair_iff]
  constructor
  · rintro ⟨gap, hline, hnil, hgap, hname, hlength, hhex⟩
    refine ⟨⟨gap, hline, hnil, hgap, fun c hc ↦ ?_, hname⟩, hlength, by simpa using hhex⟩
    by_contra hblank
    have hwhite := blank_whitespace (Bool.of_not_eq_false hblank)
    rw [(hexdigit_plain (hexdigit_of_lower (hhex c hc))).2] at hwhite
    exact nomatch hwhite
  · rintro ⟨⟨gap, hline, hnil, hgap, -, hname⟩, hlength, hhex⟩
    exact ⟨gap, hline, hnil, hgap, hname, hlength, by simpa using hhex⟩

theorem words_of_returns :
    words isWhitespace (line.rdropWhile (· == '\r')) = words isWhitespace line :=
  words_rdropWhile fun c hc ↦ by
    rw [beq_iff_eq.mp hc]
    decide

theorem update_reading_of_line (h : UpdateLine line digest name) :
    updateReading target.host line =
      .named (versionOfAsset target.host) (foldAscii digest) name := by
  rw [update_line_iff] at h
  obtain ⟨hwords, hdigest⟩ := h
  rw [updateReading, words_of_returns, hwords]
  exact if_pos hdigest

theorem update_reading_unread (h : ¬ ∃ digest name, UpdateLine line digest name) :
    updateReading target.host line = .unread := by
  rw [updateReading, words_of_returns]
  split
  · next digest name hwords =>
    refine if_neg fun hdigest ↦ h ⟨digest, name, ?_⟩
    rw [update_line_iff]
    exact ⟨hwords, hdigest⟩
  · rfl

theorem installer_reading_of_line (h : InstallerLine line digest name) :
    installerReading target line = .named (installerVersion target) digest name := by
  rw [installer_line_iff] at h
  obtain ⟨hfields, hdigest⟩ := h
  rw [installerReading, hfields]
  exact if_pos hdigest

theorem installer_reading_unread (h : ¬ ∃ digest name, InstallerLine line digest name) :
    installerReading target line = .unread := by
  rw [installerReading]
  split
  · next digest name hfields =>
    refine if_neg fun hdigest ↦ h ⟨digest, name, ?_⟩
    rw [installer_line_iff]
    exact ⟨hfields, hdigest⟩
  · rfl

theorem stripReturn_prefix (line : List Char) : stripReturn line <+: line := by
  unfold stripReturn
  split_ifs
  · exact List.dropLast_prefix line
  · exact List.prefix_rfl

theorem digest_eq {other otherName : List Char} (hupdate : UpdateLine line digest name)
    (hinstaller : InstallerLine line other otherName) : digest = other := by
  obtain ⟨before, gap, after, hline, hbefore, -, -, -, -, hlength, -⟩ := hupdate
  obtain ⟨gap', hstripped, -, -, -, hlength', hhex'⟩ := hinstaller
  obtain ⟨rest, hrest⟩ := stripReturn_prefix line
  have hline' : line = other ++ (gap' ++ otherName ++ rest) := by
    rw [← hrest, hstripped]
    simp
  -- no whitespace stands before the digest that `install.sh` reads
  have hnone : before = [] := by
    cases before with
    | nil => rfl
    | cons c before =>
      obtain ⟨d, other, rfl⟩ := List.exists_cons_of_length_eq_add_one hlength'
      obtain rfl : c = d := by
        have hhead := congrArg List.head? (hline.symm.trans hline')
        simpa using hhead
      have hplain := hexdigit_plain (hexdigit_of_lower (hhex' c List.mem_cons_self))
      exact absurd (hplain.2.symm.trans (hbefore c List.mem_cons_self)) nofun
  subst hnone
  have hsame : digest ++ (gap ++ name ++ after) = other ++ (gap' ++ otherName ++ rest) := by
    rw [← hline', hline]
    simp
  exact List.append_inj_left hsame (hlength.trans hlength'.symm)

theorem update_line_name {other otherName : List Char} (h : UpdateLine line digest name)
    (hother : UpdateLine line other otherName) : name = otherName := by
  rw [update_line_iff] at h hother
  have hwords := h.1.symm.trans hother.1
  simpa using (List.cons.inj hwords).2

theorem installer_line_name {other otherName : List Char} (h : InstallerLine line digest name)
    (hother : InstallerLine line other otherName) : name = otherName := by
  rw [installer_line_iff] at h hother
  have hfields := h.1.symm.trans hother.1
  simpa using (List.cons.inj hfields).2

/-! ## Versions -/

theorem three_numbers_isSome {read : List Char → Option Nat} {raw : List Char} :
    (threeNumbers read raw).isSome = true ↔
      (raw.splitOn '.').length = 3 ∧ ∀ number ∈ raw.splitOn '.', (read number).isSome = true := by
  unfold threeNumbers
  split
  · next major minor patch hnumbers =>
    simp only [hnumbers, List.length_cons, List.length_nil, List.mem_cons, List.not_mem_nil,
      or_false, forall_eq_or_imp, forall_eq, true_and]
    cases read major <;> cases read minor <;> cases read patch <;> simp
  · next hnumbers =>
    simp only [Option.isSome_none, Bool.false_eq_true, false_iff, not_and]
    intro hlength
    obtain ⟨major, minor, patch, hthree⟩ := List.length_eq_three.mp hlength
    exact absurd hthree (hnumbers major minor patch)

theorem read_digits_u64 {number : List Char} {n : Nat} (h : readDigits number = some n) :
    readU64 number = (some n).filter (· < 2 ^ 64) := by
  have hsign : ∀ rest, number ≠ '+' :: rest := by
    rintro rest rfl
    simp [readDigits] at h
  unfold readU64
  split
  · next rest => exact absurd rfl (hsign rest)
  · show (readDigits number).filter _ = _
    rw [h]

theorem plain_of_both {version : List Char} (hupdate : (parseVersion version).isSome = true)
    (hinstaller : (threeNumbers readDigits version).isSome = true) : PlainVersion version := by
  intro number hnumber
  obtain ⟨n, hn⟩ :=
    Option.isSome_iff_exists.mp ((three_numbers_isSome.mp hinstaller).2 number hnumber)
  refine ⟨n, hn, ?_⟩
  have hread := (three_numbers_isSome.mp hupdate).2 number hnumber
  rw [read_digits_u64 hn] at hread
  simpa [Option.isSome_filter] using hread

theorem both_of_plain {version : List Char} (h : PlainVersion version) :
    (parseVersion version).isSome = (threeNumbers readDigits version).isSome := by
  rw [Bool.eq_iff_iff, parseVersion, three_numbers_isSome, three_numbers_isSome]
  refine and_congr_right fun _ ↦ forall₂_congr fun number hnumber ↦ ?_
  obtain ⟨n, hn, hbound⟩ := h number hnumber
  simpa [read_digits_u64 hn, hn] using hbound

theorem version_eq_iff {asset : List Char} :
    versionOfAsset target.host asset = installerVersion target asset ↔
      ∀ version, versionOfAsset target.host asset = some version ∨
        installerVersion target asset = some version → PlainVersion version := by
  have hextension : target.host.extension = "tar.gz" := by cases target <;> rfl
  unfold versionOfAsset installerVersion
  rw [hextension]
  cases middleOfAsset target.host.triple "tar.gz" asset with
  | none => simp
  | some version =>
    simp only [Option.filter_some]
    cases hupdate : (parseVersion version).isSome <;>
      cases hinstaller : (threeNumbers readDigits version).isSome
    · simp
    · have hplain : ¬ PlainVersion version := fun hplain ↦ by
        simp [both_of_plain hplain, hinstaller] at hupdate
      simpa using hplain
    · have hplain : ¬ PlainVersion version := fun hplain ↦ by
        simp [both_of_plain hplain, hinstaller] at hupdate
      simpa using hplain
    · simpa using plain_of_both hupdate hinstaller

theorem named_ne_unread {version : List Char → Option (List Char)} :
    Reading.named version digest name ≠ .unread := by
  unfold Reading.named
  split <;> exact nofun

theorem named_eq_iff {version other : List Char → Option (List Char)} {otherName : List Char} :
    Reading.named version digest name = .named other digest otherName ↔
      ∀ found, version (bareName name) = some found ∨ other (bareName otherName) = some found →
        bareName otherName = bareName name ∧
          version (bareName name) = other (bareName otherName) := by
  unfold Reading.named
  cases version (bareName name) <;> cases other (bareName otherName) <;> simp
  · next found otherFound =>
    constructor
    · rintro ⟨rfl, hname⟩ _ _
      exact ⟨hname.symm, rfl⟩
    · exact fun h ↦ ⟨(h found (.inl rfl)).2, (h found (.inl rfl)).1.symm⟩

theorem reading_eq_iff : updateReading target.host line = installerReading target line ↔
    SpelledAlike target line := by
  by_cases hupdate : ∃ digest name, UpdateLine line digest name <;>
    by_cases hinstaller : ∃ digest name, InstallerLine line digest name
  · obtain ⟨digest, name, hupdateLine⟩ := hupdate
    obtain ⟨other, otherName, hinstallerLine⟩ := hinstaller
    obtain rfl := digest_eq hupdateLine hinstallerLine
    have hlower : foldAscii digest = digest := by
      obtain ⟨-, -, -, -, -, -, hhex⟩ := hinstallerLine
      exact foldAscii_lower hhex
    rw [update_reading_of_line hupdateLine, installer_reading_of_line hinstallerLine, hlower,
      named_eq_iff]
    constructor
    · intro h
      refine ⟨⟨fun _ ↦ ⟨_, _, hinstallerLine⟩, fun _ ↦ ⟨_, _, hupdateLine⟩⟩, ?_⟩
      rintro _ name' other' found hupdate' ⟨_, hinstaller'⟩ hfound
      obtain rfl := update_line_name hupdateLine hupdate'
      obtain rfl := installer_line_name hinstallerLine hinstaller'
      obtain ⟨hname, hversion⟩ := h found hfound
      rw [hname] at hversion hfound
      exact ⟨hname, version_eq_iff.mp hversion found hfound⟩
    · intro h found hfound
      have hname := (h.archive _ _ _ _ hupdateLine ⟨_, hinstallerLine⟩ hfound).1
      refine ⟨hname, ?_⟩
      rw [hname]
      refine version_eq_iff.mpr fun version hversion ↦ ?_
      exact (h.archive _ _ _ _ hupdateLine ⟨_, hinstallerLine⟩ (by rwa [hname])).2
  · obtain ⟨digest, name, hupdate⟩ := hupdate
    rw [update_reading_of_line hupdate, installer_reading_unread hinstaller]
    exact iff_of_false named_ne_unread fun h ↦ hinstaller (h.readable.mp ⟨_, _, hupdate⟩)
  · obtain ⟨digest, name, hinstaller⟩ := hinstaller
    rw [update_reading_unread hupdate, installer_reading_of_line hinstaller]
    exact iff_of_false named_ne_unread.symm fun h ↦ hupdate (h.readable.mpr ⟨_, _, hinstaller⟩)
  · rw [update_reading_unread hupdate, installer_reading_unread hinstaller]
    exact iff_of_true rfl ⟨iff_of_false hupdate hinstaller,
      fun _ name _ _ hline ↦ absurd ⟨_, name, hline⟩ hupdate⟩

/-! ## Documents -/

/-- Two readers choose the same archive or refuse for the same cause. -/
def SameOutcome {ε δ : Type} (first : Except (Cause × ε) PublishedArchive)
    (second : Except (Cause × δ) PublishedArchive) : Prop :=
  first.mapError Prod.fst = second.mapError Prod.fst

/-- The three readers agree: `update` and `install.sh`, and `select_exact_release` for every exact
version that all archives of the target carry. -/
structure ReadersAgree (target : LinuxTarget) (document : List Char) : Prop where
  installer : ∀ source assets, SameOutcome (readPublishedArchive document target.host source)
    (installerArchive document target assets)
  exact : ∀ source version, (parseVersion version).isSome →
    (∀ published ∈ archives ((lines document).map (updateReading target.host)),
      published.version = version) →
    SameOutcome (readPublishedArchive document target.host source)
      (selectExactRelease document target.host version)

theorem chosen_same {ε δ : Type} (say : Cause → Nat → ε) (other : Cause → Nat → δ) (usable : Nat)
    (matched : List PublishedArchive) :
    SameOutcome (chosen say usable matched) (chosen other usable matched) := by
  unfold SameOutcome chosen
  split
  · rfl
  · split <;> rfl

theorem select_exact_eq {document version : List Char} (source : String)
    (hversion : (parseVersion version).isSome)
    (hall : ∀ published ∈ archives ((lines document).map (updateReading target.host)),
      published.version = version) :
    SameOutcome (readPublishedArchive document target.host source)
      (selectExactRelease document target.host version) := by
  have hmatched : (archives ((lines document).map (updateReading target.host))).filter
      (·.version = version) = archives ((lines document).map (updateReading target.host)) :=
    List.filter_eq_self.mpr fun published hmem ↦ by simpa using hall published hmem
  rw [selectExactRelease, if_neg (by simpa using Option.isSome_iff_ne_none.mp hversion), hmatched]
  exact chosen_same _ _ _ _

theorem records_last (hnil : line ≠ []) (h : '\n' ∉ line) : records line = [line] := by
  have hend : line.getLast? ≠ some '\n' := fun hlast ↦ h (List.mem_of_getLast? hlast)
  rw [records, splitInclusive_last hnil h, List.map_singleton, if_neg hend]

theorem records_append {rest : List Char} (h : '\n' ∉ line) :
    records (line ++ '\n' :: rest) = line :: records rest := by
  rw [records, splitInclusive_append h, List.map_cons, List.getLast?_concat, if_pos rfl,
    List.dropLast_concat, records]

theorem update_reading_stripReturn :
    updateReading target.host (stripReturn line) = updateReading target.host line := by
  have hwords : words isWhitespace (stripReturn line) = words isWhitespace line := by
    unfold stripReturn
    split_ifs with hlast
    · obtain ⟨front, rfl⟩ := List.getLast?_eq_some_iff.mp hlast
      rw [List.dropLast_concat, words_concat_separator (by decide)]
    · rfl
  rw [updateReading, updateReading, words_of_returns, words_of_returns, hwords]

theorem update_readings (target : LinuxTarget) (document : List Char) :
    (lines document).map (updateReading target.host) =
      (records document).map (updateReading target.host) := by
  induction document using line_induction with
  | empty => rfl
  | last line hnil hline => rw [lines_last hnil hline, records_last hnil hline]
  | cons line rest hline ih =>
    rw [lines_append hline, records_append hline, List.map_cons, List.map_cons, ih,
      update_reading_stripReturn]

theorem records_unlines {parts : List (List Char)} (h : ∀ part ∈ parts, '\n' ∉ part) :
    records (unlines parts) = parts := by
  induction parts with
  | nil => rfl
  | cons part parts ih =>
    simp only [List.mem_cons, forall_eq_or_imp] at h
    rw [unlines, List.flatMap_cons, List.append_assoc, List.singleton_append,
      records_append h.1]
    exact congrArg _ (ih h.2)

theorem newline_of_record {document : List Char} (h : line ∈ records document) : '\n' ∉ line := by
  induction document using line_induction with
  | empty => exact absurd h List.not_mem_nil
  | last text hnil htext =>
    rw [records_last hnil htext, List.mem_singleton] at h
    exact h ▸ htext
  | cons text rest htext ih =>
    rw [records_append htext, List.mem_cons] at h
    obtain rfl | h := h
    · exact htext
    · exact ih h

theorem reading_of_chosen {ε δ : Type} {say : Cause → Nat → ε} {other : Cause → Nat → δ}
    {first second : Reading}
    (h : SameOutcome (chosen say (usable [first]) (archives [first]))
      (chosen other (usable [second]) (archives [second]))) : first = second := by
  cases first <;> cases second <;> simp_all [SameOutcome, chosen, usable, archives, Except.mapError]

theorem readers_agree_of_alike {document : List Char}
    (h : ∀ line ∈ records document, SpelledAlike target line) : ReadersAgree target document where
  installer source assets := by
    have hreadings : (lines document).map (updateReading target.host) =
        (records document).map (installerReading target) := by
      rw [update_readings]
      exact List.map_congr_left fun line hline ↦ reading_eq_iff.mpr (h line hline)
    rw [readPublishedArchive, installerArchive, hreadings]
    exact chosen_same _ _ _ _
  exact source _ hversion hall := select_exact_eq source hversion hall

/-- The readers agree on a document and on every document of some of its lines exactly when every
line is spelled alike. -/
theorem readers_agree_iff (target : LinuxTarget) (document : List Char) :
    (ReadersAgree target document ∧
        ∀ part, part.Sublist (records document) → ReadersAgree target (unlines part)) ↔
      ∀ line ∈ records document, SpelledAlike target line := by
  constructor
  · rintro ⟨-, hparts⟩ line hline
    have hnewline : ∀ part ∈ [line], '\n' ∉ part := by simpa using newline_of_record hline
    have hagree := (hparts [line] (List.singleton_sublist.mpr hline)).installer "" ""
    rw [readPublishedArchive, installerArchive, update_readings, records_unlines hnewline] at hagree
    exact reading_eq_iff.mp (reading_of_chosen hagree)
  · intro h
    refine ⟨readers_agree_of_alike h, fun part hpart ↦ readers_agree_of_alike fun line hline ↦ ?_⟩
    rw [records_unlines fun other hother ↦ newline_of_record (hpart.subset hother)] at hline
    exact h line (hpart.subset hline)

/-- A digest in capitals, as `sha256sum -c` takes it: `update` chooses the archive, `install.sh` has
no line it can read. -/
theorem capital_digest_disagrees :
    ¬ ReadersAgree .x64 (List.replicate 64 'A' ++
      "  runner-manager-1.2.3-x86_64-unknown-linux-gnu.tar.gz\n".toList) := by
  intro h
  have hinstaller := h.installer "" ""
  revert hinstaller
  rw [String.toList_ofList]
  unfold SameOutcome
  decide +kernel

end RunnerManager.App.ReleaseSums
