import RunnerManager.Domain.Model
import Mathlib.Data.List.Forall2

/-!
# Where a cache namespace lies

`Namespace` of `crates/platform/src/dependency_cache.rs`: the two path segments of a target's
caches, or of a namespace that targets share. A segment is rewritten where a platform would not
take it as it is, and nothing marks it as rewritten. Read `segment_eq_iff` first: it says which
names have one segment. The digest is that of the `sha2` crate in hexadecimal, a parameter.
-/

namespace RunnerManager.Platform

open RunnerManager.Text RunnerManager.Domain

/-! ## The code -/

def isWindowsDeviceName (segment : List Char) : Bool :=
  let stem := (segment.takeWhile (· ≠ '.')).map Char.toUpper
  stem ∈ ["CON".toList, "PRN".toList, "AUX".toList, "NUL".toList] ||
    (byteLen stem = 4 && (stem.take 3 = "COM".toList || stem.take 3 = "LPT".toList) &&
      (stem.drop 3).all fun c ↦ '0' ≤ c && c ≤ '9')

/-- The characters that every platform takes in a file name. -/
def portableChar (c : Char) : Bool :=
  isAsciiAlphanumeric c || c == '.' || c == '-' || c == '_'

def portableSegment (raw : List Char) : List Char :=
  let cleaned := raw.map fun c ↦ if portableChar c then c else '_'
  let cleaned :=
    if cleaned = [] ∨ cleaned = ['.'] ∨ cleaned = ['.', '.'] then '_' :: cleaned else cleaned
  if isWindowsDeviceName cleaned || cleaned.getLast? = some '.' then cleaned ++ ['_'] else cleaned

def maxSegmentLen : Nat := 32

def segmentDigestLen : Nat := 8

/-- A shortened name: its beginning, and the beginning of its digest. -/
def cut (digest : List Char → List Char) (raw : List Char) : List Char :=
  (portableSegment raw).take (maxSegmentLen - segmentDigestLen - 1) ++
    '-' :: (digest raw).take segmentDigestLen

/-- `segment`; a portable segment is ASCII, so its length is that of its characters. -/
def segment (digest : List Char → List Char) (raw : List Char) : List Char :=
  if (portableSegment raw).length ≤ maxSegmentLen then portableSegment raw else cut digest raw

def asciiLower (text : String) : String :=
  String.ofList (foldAscii text.toList)

/-- Whose cache a runner uses. -/
inductive Namespace where
  | repository (owner repo : String)
  | organization (name : String)
  | shared (name : String)
deriving DecidableEq

namespace Namespace

/-- `Namespace::of`. -/
def ofTarget : ScaleTarget → Namespace
  | .repository value => .repository (asciiLower value.owner.text) (asciiLower value.repo.text)
  | .organization org => .organization (asciiLower org.text)

def segments (digest : List Char → List Char) : Namespace → List (List Char)
  | repository owner repo => [segment digest owner.toList, segment digest repo.toList]
  | organization name => ["_org".toList, segment digest name.toList]
  | shared name => ["_shared".toList, segment digest name.toList]

/-- `Namespace::dir`, by its components. -/
def dir (digest : List Char → List Char) (root : List (List Char)) (value : Namespace) :
    List (List Char) :=
  root ++ value.segments digest

end Namespace

def validateNamespaceName (name : String) : Bool :=
  let cs := name.toList
  cs ≠ [] && byteLen cs ≤ 64 && cs.head? ≠ some '.' &&
    cs.all (fun c ↦ ('a' ≤ c && c ≤ 'z') || ('0' ≤ c && c ≤ '9') || c == '.' || c == '_' ||
      c == '-') && !isWindowsDeviceName cs

/-! ## Equal directories -/

/-- Two names of one file, where case does not count and trailing dots are dropped. -/
def SameComponent (a b : List Char) : Prop :=
  foldAscii (a.rdropWhile (· = '.')) = foldAscii (b.rdropWhile (· = '.'))

/-- Two paths to one directory. -/
def SameDir (a b : List (List Char)) : Prop :=
  List.Forall₂ SameComponent a b

/-- Whose caches are at hand: those of a target, or a namespace with an accepted name. -/
inductive CacheOwner where
  | target (value : ScaleTarget)
  | shared (name : String) (hvalid : validateNamespaceName name = true)

namespace CacheOwner

def space : CacheOwner → Namespace
  | target value => .ofTarget value
  | shared name _ => .shared name

/-- One target up to ASCII case, or one shared name. -/
def Same : CacheOwner → CacheOwner → Prop
  | target a, target b => a.same b = true
  | shared a _, shared b _ => a = b
  | _, _ => False

/-- The names that are made segments of. -/
def names (owner : CacheOwner) : List (List Char) :=
  match owner.space with
  | .repository owner repo => [owner.toList, repo.toList]
  | .organization name => [name.toList]
  | .shared name => [name.toList]

def kind (owner : CacheOwner) : Nat :=
  match owner.space with
  | .repository .. => 0
  | .organization _ => 1
  | .shared _ => 2

end CacheOwner

/-- What is documented of a digest in hexadecimal. -/
structure HexDigest (digest : List Char → List Char) : Prop where
  length : ∀ raw, (digest raw).length = 64
  hex : ∀ raw, ∀ c ∈ digest raw, ('0' ≤ c ∧ c ≤ '9') ∨ ('a' ≤ c ∧ c ≤ 'f')

/-- A name that is taken as it is, and that is what another one is rewritten to: with an underscore
behind it, because it is the name of a device or ends with a dot; or cut and with its digest,
because it is long. -/
def Rewrites (digest : List Char → List Char) (raw plain : List Char) : Prop :=
  isWindowsDeviceName plain = false ∧
    ((isWindowsDeviceName raw = true ∨ raw.getLast? = some '.') ∧
        plain = raw ++ ['_'] ∧ plain.length ≤ maxSegmentLen ∨
      maxSegmentLen < (portableSegment raw).length ∧ plain = cut digest raw)

/-- Two names with one segment. -/
def Meets (digest : List Char → List Char) (a b : List Char) : Prop :=
  a = b ∨ Rewrites digest a b ∨ Rewrites digest b a

/-! ## Segments of accepted names -/

/-- What a name of GitHub and a shared name have in common, in lower case. -/
structure Nameable (raw : List Char) : Prop where
  portable : ∀ c ∈ raw, portableChar c = true
  lower : foldAscii raw = raw
  visible : raw ≠ [] ∧ raw ≠ ['.'] ∧ raw ≠ ['.', '.']

theorem lower_char {c : Char} (h : ('0' ≤ c ∧ c ≤ '9') ∨ ('a' ≤ c ∧ c ≤ 'z')) :
    c.toLower = c ∧ portableChar c = true := by
  have hascii : c.toNat < 128 := by
    have hz : '9' ≤ 'z' ∧ ('z' : Char).toNat = 122 := by decide
    have hle : c ≤ 'z' := by
      rcases h with ⟨-, h⟩ | ⟨-, h⟩
      · exact Char.le_trans h hz.1
      · exact h
    have hnat : c.toNat ≤ ('z' : Char).toNat := hle
    omega
  exact ascii_induction (P := fun c ↦ (('0' ≤ c ∧ c ≤ '9') ∨ ('a' ≤ c ∧ c ≤ 'z')) →
    c.toLower = c ∧ portableChar c = true) (by decide) hascii h

section

variable {digest : List Char → List Char} {raw a b : List Char}

theorem portable_segment_eq (h : Nameable raw) : portableSegment raw =
    if isWindowsDeviceName raw || raw.getLast? = some '.' then raw ++ ['_'] else raw := by
  have hmap : (raw.map fun c ↦ if portableChar c then c else '_') = raw := by
    refine (List.map_congr_left fun c hc ↦ ?_).trans (List.map_id raw)
    rw [if_pos (h.portable c hc)]
    rfl
  have hvisible : ¬ (raw = [] ∨ raw = ['.'] ∨ raw = ['.', '.']) := by
    obtain ⟨hempty, hdot, hdots⟩ := h.visible
    tauto
  unfold portableSegment
  simp only [hmap, if_neg hvisible]

theorem portable_segment_self (h : Nameable raw) (hdevice : isWindowsDeviceName raw = false)
    (hdot : raw.getLast? ≠ some '.') : portableSegment raw = raw := by
  rw [portable_segment_eq h, if_neg]
  simp [hdevice, hdot]

theorem length_portable_segment (h : Nameable raw) :
    portableSegment raw = raw ∧ isWindowsDeviceName raw = false ∧ raw.getLast? ≠ some '.' ∨
      portableSegment raw = raw ++ ['_'] ∧
        (isWindowsDeviceName raw = true ∨ raw.getLast? = some '.') := by
  rw [portable_segment_eq h]
  split_ifs with hmarked
  · exact .inr ⟨rfl, by simpa using hmarked⟩
  · exact .inl ⟨rfl, by simpa using hmarked⟩

theorem cut_last (h : HexDigest digest) (raw : List Char) :
    ∃ c, (cut digest raw).getLast? = some c ∧ c ≠ '_' ∧ c ≠ '.' := by
  have hlength : ((digest raw).take segmentDigestLen).length = 8 := by
    rw [List.length_take, h.length]
    rfl
  have hne : (digest raw).take segmentDigestLen ≠ [] := by
    intro hnil
    rw [hnil] at hlength
    cases hlength
  refine ⟨((digest raw).take segmentDigestLen).getLast hne, ?_, ?_⟩
  · unfold cut
    rw [List.getLast?_append, List.getLast?_cons, List.getLast?_eq_some_getLast hne]
    rfl
  · have hhex := h.hex raw _ (List.mem_of_mem_take (List.getLast_mem hne))
    refine ⟨fun heq ↦ ?_, fun heq ↦ ?_⟩
    · rw [heq] at hhex
      revert hhex
      decide
    · rw [heq] at hhex
      revert hhex
      decide

theorem length_cut (h : HexDigest digest) (hlong : maxSegmentLen < (portableSegment raw).length) :
    (cut digest raw).length = maxSegmentLen := by
  unfold cut
  rw [List.length_append, List.length_cons, List.length_take, List.length_take, h.length]
  unfold maxSegmentLen segmentDigestLen at *
  omega

theorem Rewrites.plain (hdigest : HexDigest digest) (hb : Nameable b) (h : Rewrites digest a b) :
    segment digest b = b := by
  obtain ⟨hdevice, hform⟩ := h
  have hlast : b.getLast? ≠ some '.' ∧ b.length ≤ maxSegmentLen := by
    rcases hform with ⟨-, rfl, hshort⟩ | ⟨hlong, rfl⟩
    · exact ⟨by simp, hshort⟩
    · obtain ⟨c, hc, -, hdot⟩ := cut_last hdigest a
      refine ⟨fun heq ↦ hdot ?_, (length_cut hdigest hlong).le⟩
      rw [hc] at heq
      exact Option.some.inj heq
  have hself := portable_segment_self hb hdevice hlast.1
  unfold segment
  rw [hself, if_pos hlast.2]

theorem Rewrites.segment_eq (ha : Nameable a) (h : Rewrites digest a b) : segment digest a = b := by
  obtain ⟨-, ⟨hmarked, rfl, hshort⟩ | ⟨hlong, rfl⟩⟩ := h
  · have happended : portableSegment a = a ++ ['_'] := by
      rw [portable_segment_eq ha, if_pos]
      simpa using hmarked
    unfold segment
    rw [happended, if_pos hshort]
  · unfold segment
    rw [if_neg (Nat.not_le_of_lt hlong)]

theorem rewrites_of_short (ha : Nameable a) (hb : Nameable b)
    (hshort : (portableSegment b).length ≤ maxSegmentLen)
    (heq : portableSegment a = portableSegment b) : Meets digest a b := by
  rcases length_portable_segment ha with ⟨hself, hdevice, -⟩ | ⟨happended, hmarked⟩
  · rcases length_portable_segment hb with ⟨hother, -, -⟩ | ⟨hother, hmarked⟩
    · exact .inl (by rw [← hself, heq, hother])
    · rw [hself, hother] at heq
      rw [hother] at hshort
      exact .inr (.inr ⟨hdevice, .inl ⟨hmarked, heq, heq ▸ hshort⟩⟩)
  · rcases length_portable_segment hb with ⟨hother, hdevice, -⟩ | ⟨hother, -⟩
    · rw [happended, hother] at heq
      rw [hother] at hshort
      exact .inr (.inl ⟨hdevice, .inl ⟨hmarked, heq.symm, hshort⟩⟩)
    · rw [happended, hother] at heq
      exact .inl (List.append_cancel_right heq)

theorem rewrites_of_long (hdigest : HexDigest digest) (hb : Nameable b)
    (hlong : maxSegmentLen < (portableSegment a).length) (heq : cut digest a = portableSegment b) :
    Rewrites digest a b := by
  rcases length_portable_segment hb with ⟨hself, hdevice, -⟩ | ⟨happended, -⟩
  · exact ⟨hdevice, .inr ⟨hlong, by rw [← hself, heq]⟩⟩
  · obtain ⟨c, hc, hunderscore, -⟩ := cut_last hdigest a
    rw [heq, happended, List.getLast?_concat] at hc
    exact absurd (Option.some.inj hc).symm hunderscore

/-- Two names that do not share a digest have one segment only where they are one name, or one of
them is what the other one is rewritten to. -/
theorem segment_eq_iff (hdigest : HexDigest digest) (ha : Nameable a) (hb : Nameable b)
    (hdistinct : (digest a).take segmentDigestLen = (digest b).take segmentDigestLen → a = b) :
    segment digest a = segment digest b ↔ Meets digest a b := by
  constructor
  · intro heq
    unfold segment at heq
    split_ifs at heq with hshort hother hother
    · exact rewrites_of_short ha hb hother heq
    · exact .inr (.inr (rewrites_of_long hdigest ha (Nat.lt_of_not_le hother) heq.symm))
    · exact .inr (.inl (rewrites_of_long hdigest hb (Nat.lt_of_not_le hshort) heq))
    · -- both are cut, and the digests are at the end
      refine .inl (hdistinct ?_)
      have htails := congrArg (fun cs : List Char ↦ cs.drop 24) heq
      have hcut (raw : List Char) (hlong : ¬ (portableSegment raw).length ≤ maxSegmentLen) :
          (cut digest raw).drop 24 = (digest raw).take segmentDigestLen := by
        unfold cut
        have hfront : ((portableSegment raw).take
            (maxSegmentLen - segmentDigestLen - 1) ++ ['-']).length = 24 := by
          rw [List.length_append, List.length_take]
          unfold maxSegmentLen segmentDigestLen at *
          simp
          omega
        rw [List.append_cons, ← hfront, List.drop_left]
      rw [← hcut a hshort, ← hcut b hother]
      exact htails
  · rintro (rfl | hab | hba)
    · rfl
    · rw [hab.segment_eq ha, hab.plain hdigest hb]
    · rw [hba.segment_eq hb, hba.plain hdigest ha]

/-- A segment is in lower case and does not end with a dot. -/
theorem segment_canonical (hdigest : HexDigest digest) (h : Nameable raw) :
    foldAscii (segment digest raw) = segment digest raw ∧
      (segment digest raw).getLast? ≠ some '.' := by
  have hportable : foldAscii (portableSegment raw) = portableSegment raw := by
    rcases length_portable_segment h with ⟨hself, -⟩ | ⟨happended, -⟩
    · rw [hself, h.lower]
    · rw [happended, foldAscii, List.map_append]
      exact congrArg (· ++ ['_']) h.lower
  unfold segment
  split_ifs with hshort
  · refine ⟨hportable, ?_⟩
    rcases length_portable_segment h with ⟨hself, -, hdot⟩ | ⟨happended, -⟩
    · rw [hself]
      exact hdot
    · rw [happended, List.getLast?_concat]
      decide
  · constructor
    · have hhex (c : Char) (hc : c ∈ (digest raw).take segmentDigestLen) : c.toLower = c := by
        rcases hdigest.hex raw c (List.mem_of_mem_take hc) with hdigit | ⟨hlow, hhigh⟩
        · exact (lower_char (.inl hdigit)).1
        · exact (lower_char (.inr ⟨hlow, Char.le_trans hhigh (by decide : 'f' ≤ 'z')⟩)).1
      have hfront : ((portableSegment raw).take (maxSegmentLen - segmentDigestLen - 1)).map
          Char.toLower = (portableSegment raw).take (maxSegmentLen - segmentDigestLen - 1) := by
        rw [List.map_take]
        exact congrArg (List.take _) hportable
      have hback : ((digest raw).take segmentDigestLen).map Char.toLower =
          (digest raw).take segmentDigestLen :=
        (List.map_congr_left hhex).trans (List.map_id' _)
      unfold cut
      rw [foldAscii, List.map_append, List.map_cons, hfront, hback]
      rfl
    · obtain ⟨c, hc, -, hdot⟩ := cut_last hdigest raw
      rw [hc]
      exact fun heq ↦ hdot (Option.some.inj heq)

theorem same_component_iff (hdigest : HexDigest digest) (ha : Nameable a) (hb : Nameable b) :
    SameComponent (segment digest a) (segment digest b) ↔ segment digest a = segment digest b := by
  have hstrip {raw : List Char} (h : Nameable raw) :
      foldAscii ((segment digest raw).rdropWhile (· = '.')) = segment digest raw := by
    obtain ⟨hlower, hlast⟩ := segment_canonical hdigest h
    rw [List.rdropWhile_eq_self_iff.mpr ?_, hlower]
    intro hne
    rw [List.getLast?_eq_some_getLast hne] at hlast
    simpa using hlast
  unfold SameComponent
  rw [hstrip ha, hstrip hb]

end

/-! ## Owners -/

/-- The lower case of a name that GitHub gives. -/
theorem nameable_lower {text : String} (hchars : ∀ c ∈ text.toList, repoChar c = true)
    (hvisible : text.toList ≠ [] ∧ text.toList ≠ ['.'] ∧ text.toList ≠ ['.', '.']) :
    Nameable (asciiLower text).toList := by
  have hdot {c : Char} (hc : c ∈ text.toList) : portableChar c.toLower = true ∧
      (c.toLower = '.' ↔ c = '.') :=
    ascii_induction (P := fun c ↦ repoChar c = true → portableChar c.toLower = true ∧
      (c.toLower = '.' ↔ c = '.')) (by decide) (repoChar_ascii (hchars c hc)) (hchars c hc)
  unfold asciiLower
  rw [String.toList_ofList]
  refine ⟨fun c hc ↦ ?_, foldAscii_foldAscii _, ?_⟩
  · obtain ⟨original, horiginal, rfl⟩ := List.mem_map.mp hc
    exact (hdot horiginal).1
  · obtain ⟨hempty, hone, htwo⟩ := hvisible
    revert hempty hone htwo hdot
    generalize text.toList = cs
    intro hdot hempty hone htwo
    match cs with
    | [] => exact absurd rfl hempty
    | [a] =>
      have ha := (hdot (List.mem_cons_self ..)).2
      refine ⟨by simp [foldAscii], fun h ↦ hone ?_, by simp [foldAscii]⟩
      rw [ha.mp (List.cons.inj h).1]
    | [a, b] =>
      have ha := (hdot (c := a) (by simp)).2
      have hb := (hdot (c := b) (by simp)).2
      refine ⟨by simp [foldAscii], by simp [foldAscii], fun h ↦ htwo ?_⟩
      obtain ⟨hfirst, hsecond⟩ := List.cons.inj h
      rw [ha.mp hfirst, hb.mp (List.cons.inj hsecond).1]
    | a :: b :: c :: rest => simp [foldAscii]

theorem nameable_login {what : String} (login : Canonical (validateLogin what)) :
    Nameable (asciiLower login.text).toList ∧
      ∀ c ∈ (asciiLower login.text).toList, c ≠ '_' := by
  have hname := (check_name_iff.mp login.canonical).2
  have hlogin {c : Char} (hc : c ∈ login.text.toList) : repoChar c = true ∧ c ≠ '.' ∧
      c.toLower ≠ '_' := by
    have hchar := hname.characters c hc
    have hrepo : repoChar c = true := by
      simp only [loginChar, Bool.or_eq_true] at hchar
      simp only [repoChar, Bool.or_eq_true]
      tauto
    exact ⟨hrepo, ascii_induction (P := fun c ↦ loginChar c = true → c ≠ '.' ∧ c.toLower ≠ '_')
      (by decide) (repoChar_ascii hrepo) hchar⟩
  refine ⟨nameable_lower (fun c hc ↦ (hlogin hc).1) ⟨hname.nonempty, ?_, ?_⟩, fun c hc ↦ ?_⟩
  · intro h
    exact (hlogin (c := '.') (by rw [h]; simp)).2.1 rfl
  · intro h
    exact (hlogin (c := '.') (by rw [h]; simp)).2.1 rfl
  · unfold asciiLower at hc
    rw [String.toList_ofList] at hc
    obtain ⟨original, horiginal, rfl⟩ := List.mem_map.mp hc
    exact (hlogin horiginal).2.2

theorem nameable_repo (repo : Canonical validateRepoName) :
    Nameable (asciiLower repo.text).toList := by
  refine nameable_lower (OwnerRepo.repo_characters repo.canonical) ?_
  have hvalid := repo.canonical
  simp only [validateRepoName] at hvalid
  split_ifs at hvalid with hempty hlong hdots
  have htrim : trim repo.text.toList = repo.text.toList :=
    trim_eq_self fun c hc ↦
      (OwnerRepo.repoChar_visible (OwnerRepo.repo_characters repo.canonical c hc)).1
  rw [htrim] at hempty hdots
  tauto

theorem nameable_shared {name : String} (h : validateNamespaceName name = true) :
    Nameable name.toList := by
  unfold validateNamespaceName at h
  simp only [Bool.and_eq_true, decide_eq_true_eq, List.all_eq_true, Bool.or_eq_true,
    beq_iff_eq] at h
  obtain ⟨⟨⟨⟨hempty, -⟩, hhead⟩, hchars⟩, -⟩ := h
  have hchar {c : Char} (hc : c ∈ name.toList) : c.toLower = c ∧ portableChar c = true := by
    rcases hchars c hc with (((hlow | hdigit) | rfl) | rfl) | rfl
    · exact lower_char (.inr hlow)
    · exact lower_char (.inl hdigit)
    · decide
    · decide
    · decide
  refine ⟨fun c hc ↦ (hchar hc).2, ?_, hempty, ?_, ?_⟩
  · exact (List.map_congr_left fun c hc ↦ (hchar hc).1).trans (List.map_id' _)
  · intro h
    rw [h] at hhead
    exact hhead rfl
  · intro h
    rw [h] at hhead
    exact hhead rfl

theorem CacheOwner.nameable (owner : CacheOwner) : ∀ name ∈ owner.names, Nameable name := by
  cases owner with
  | target value =>
    cases value with
    | repository value =>
      intro name hname
      rcases List.mem_cons.mp hname with rfl | hname
      · exact (nameable_login value.owner).1
      · obtain rfl := List.mem_singleton.mp hname
        exact nameable_repo value.repo
    | organization org =>
      intro name hname
      obtain rfl := List.mem_singleton.mp hname
      exact (nameable_login org).1
  | shared name hvalid =>
    intro other hother
    obtain rfl := List.mem_singleton.mp hother
    exact nameable_shared hvalid

/-! ## Directories -/

section

variable {digest : List Char → List Char} {root : List (List Char)} {a b : CacheOwner}

theorem same_dir_append (root : List (List Char)) {x y : List (List Char)} :
    SameDir (root ++ x) (root ++ y) ↔ SameDir x y := by
  induction root with
  | nil => exact Iff.rfl
  | cons component root ih =>
    refine (List.forall₂_cons).trans ?_
    exact (and_iff_right rfl).trans ih

theorem meets_iff (hdigest : HexDigest digest) {x y : List Char} (hx : Nameable x)
    (hy : Nameable y)
    (hdistinct : (digest x).take segmentDigestLen = (digest y).take segmentDigestLen → x = y) :
    SameComponent (segment digest x) (segment digest y) ↔ Meets digest x y :=
  (same_component_iff hdigest hx hy).trans (segment_eq_iff hdigest hx hy hdistinct)

theorem segment_head {raw : List Char} (h : Nameable raw) :
    (segment digest raw).head? = raw.head? := by
  have hportable : (portableSegment raw).head? = raw.head? := by
    rcases length_portable_segment h with ⟨hself, -⟩ | ⟨happended, -⟩
    · rw [hself]
    · rw [happended, List.head?_append_of_ne_nil _ h.visible.1]
  unfold segment
  split_ifs with hshort
  · exact hportable
  · unfold cut
    rw [List.head?_append_of_ne_nil, List.head?_take, if_neg (by decide), hportable]
    intro hnil
    rw [List.take_eq_nil_iff] at hnil
    rcases hnil with hnil | hnil
    · cases hnil
    · rw [hnil] at hshort
      exact hshort (Nat.zero_le _)

theorem not_same_login (hdigest : HexDigest digest) {what : String}
    (login : Canonical (validateLogin what)) {place rest : List Char}
    (hplace : foldAscii (place.rdropWhile (· = '.')) = '_' :: rest) :
    ¬ SameComponent (segment digest (asciiLower login.text).toList) place := by
  obtain ⟨hname, hchars⟩ := nameable_login login
  obtain ⟨hlower, hlast⟩ := segment_canonical hdigest hname
  have hstrip : (segment digest (asciiLower login.text).toList).rdropWhile (· = '.') =
      segment digest (asciiLower login.text).toList := by
    rw [List.rdropWhile_eq_self_iff]
    intro hne
    rw [List.getLast?_eq_some_getLast hne] at hlast
    simpa using hlast
  intro hsame
  unfold SameComponent at hsame
  rw [hstrip, hlower, hplace] at hsame
  have hhead : (segment digest _).head? = _ := segment_head hname
  rw [hsame, List.head?_cons] at hhead
  exact hchars '_' (List.mem_of_mem_head? hhead.symm) rfl

theorem same_dir_pair {x y z w : List Char} :
    SameDir [x, y] [z, w] ↔ SameComponent x z ∧ SameComponent y w := by
  simp [SameDir]

/-- Two owners have one directory if and only if they are of one kind and their names meet. -/
theorem same_dir_iff (hdigest : HexDigest digest)
    (hdistinct : ∀ x ∈ a.names, ∀ y ∈ b.names,
      (digest x).take segmentDigestLen = (digest y).take segmentDigestLen → x = y) :
    SameDir (a.space.dir digest root) (b.space.dir digest root) ↔
      a.kind = b.kind ∧ List.Forall₂ (Meets digest) a.names b.names := by
  have hmeets {x y : List Char} (hx : x ∈ a.names) (hy : y ∈ b.names) :
      SameComponent (segment digest x) (segment digest y) ↔ Meets digest x y :=
    meets_iff hdigest (a.nameable x hx) (b.nameable y hy) (hdistinct x hx y hy)
  have horg : foldAscii ("_org".toList.rdropWhile (· = '.')) = '_' :: "org".toList := by decide
  have hshared : foldAscii ("_shared".toList.rdropWhile (· = '.')) = '_' :: "shared".toList := by
    decide
  have hdiffer : ¬ SameComponent "_org".toList "_shared".toList := by
    unfold SameComponent
    decide
  rw [Namespace.dir, Namespace.dir, same_dir_append]
  have hone {x y : List Char} : List.Forall₂ (Meets digest) [x] [y] ↔ Meets digest x y := by simp
  have hself {x : List Char} : SameComponent x x := rfl
  cases a with
  | target first =>
    cases first with
    | repository first =>
      cases b with
      | target second =>
        cases second with
        | repository second =>
          refine same_dir_pair.trans ?_
          rw [hmeets (.head _) (.head _), hmeets (.tail _ (.head _)) (.tail _ (.head _))]
          simp [CacheOwner.kind, CacheOwner.names, CacheOwner.space, Namespace.ofTarget]
        | organization second =>
          refine iff_of_false (fun hdir ↦ ?_) fun h ↦ (nomatch h.1)
          exact not_same_login hdigest first.owner horg (same_dir_pair.mp hdir).1
      | shared second hsecond =>
        refine iff_of_false (fun hdir ↦ ?_) fun h ↦ (nomatch h.1)
        exact not_same_login hdigest first.owner hshared (same_dir_pair.mp hdir).1
    | organization first =>
      cases b with
      | target second =>
        cases second with
        | repository second =>
          refine iff_of_false (fun hdir ↦ ?_) fun h ↦ (nomatch h.1)
          exact not_same_login hdigest second.owner horg (same_dir_pair.mp hdir).1.symm
        | organization second =>
          refine same_dir_pair.trans ?_
          rw [hmeets (.head _) (.head _), and_iff_right hself]
          exact hone.symm.trans (and_iff_right rfl).symm
      | shared second hsecond =>
        refine iff_of_false (fun hdir ↦ ?_) fun h ↦ (nomatch h.1)
        exact hdiffer (same_dir_pair.mp hdir).1
  | shared first hfirst =>
    cases b with
    | target second =>
      cases second with
      | repository second =>
        refine iff_of_false (fun hdir ↦ ?_) fun h ↦ (nomatch h.1)
        exact not_same_login hdigest second.owner hshared (same_dir_pair.mp hdir).1.symm
      | organization second =>
        refine iff_of_false (fun hdir ↦ ?_) fun h ↦ (nomatch h.1)
        exact hdiffer (same_dir_pair.mp hdir).1.symm
    | shared second hsecond =>
      refine same_dir_pair.trans ?_
      rw [hmeets (.head _) (.head _), and_iff_right hself]
      exact hone.symm.trans (and_iff_right rfl).symm

end

/-- The caches of two owners are kept apart if and only if the owners are one, or differ in kind,
or in a name that neither meets the other one nor is met by it. -/
theorem isolated_iff {digest : List Char → List Char} (hdigest : HexDigest digest)
    {root : List (List Char)} {a b : CacheOwner}
    (hdistinct : ∀ x ∈ a.names, ∀ y ∈ b.names,
      (digest x).take segmentDigestLen = (digest y).take segmentDigestLen → x = y) :
    (SameDir (a.space.dir digest root) (b.space.dir digest root) → a.Same b) ↔
      a.Same b ∨ ¬ (a.kind = b.kind ∧ List.Forall₂ (Meets digest) a.names b.names) := by
  rw [same_dir_iff hdigest hdistinct]
  tauto

/-! ## A repository named after a device -/

/-- A digest that tells a few short names apart. -/
def sizeDigest (raw : List Char) : List Char :=
  List.replicate 4 (if raw.length = 3 then '3' else '4') ++
    List.replicate 60 (if raw.head? = some 'o' then '0' else '1')

theorem sizeDigest_hex : HexDigest sizeDigest := by
  refine ⟨fun raw ↦ ?_, fun raw c hc ↦ ?_⟩
  · unfold sizeDigest
    rw [List.length_append, List.length_replicate, List.length_replicate]
  · unfold sizeDigest at hc
    rcases List.mem_append.mp hc with hc | hc
    · rw [List.eq_of_mem_replicate hc]
      split_ifs <;> decide
    · rw [List.eq_of_mem_replicate hc]
      split_ifs <;> decide

def octoRepository (name : Canonical validateRepoName) : CacheOwner :=
  .target (.repository ⟨⟨"octo", octo_owner⟩, name⟩)

/-- Two repositories with plain names are kept apart. -/
theorem plain_isolated :
    ¬ (octoRepository ⟨"api", by decide⟩).Same (octoRepository ⟨"site", by decide⟩) ∧
      ¬ SameDir ((octoRepository ⟨"api", by decide⟩).space.dir sizeDigest [])
        ((octoRepository ⟨"site", by decide⟩).space.dir sizeDigest []) := by
  have hother : ¬ (octoRepository ⟨"api", by decide⟩).Same
      (octoRepository ⟨"site", by decide⟩) := by
    show ¬ ScaleTarget.same _ _ = true
    decide
  refine ⟨hother, fun hsame ↦ hother ?_⟩
  refine (isolated_iff sizeDigest_hex (by decide)).mpr (.inr fun ⟨_, hnames⟩ ↦ ?_) hsame
  have hmeets : Meets sizeDigest "api".toList "site".toList :=
    (List.forall₂_cons.mp (List.forall₂_cons.mp hnames).2).1
  unfold Meets Rewrites at hmeets
  revert hmeets
  decide

/-- The repositories `con` and `con_` have one directory. -/
theorem device_shared :
    SameDir ((octoRepository ⟨"con", by decide⟩).space.dir sizeDigest [])
      ((octoRepository ⟨"con_", by decide⟩).space.dir sizeDigest []) ∧
    (∀ x ∈ (octoRepository ⟨"con", by decide⟩).names,
      ∀ y ∈ (octoRepository ⟨"con_", by decide⟩).names,
        (sizeDigest x).take segmentDigestLen = (sizeDigest y).take segmentDigestLen → x = y) ∧
    ¬ (octoRepository ⟨"con", by decide⟩).Same (octoRepository ⟨"con_", by decide⟩) := by
  refine ⟨?_, by decide, ?_⟩
  · have hdir : (octoRepository ⟨"con", by decide⟩).space.dir sizeDigest [] =
        (octoRepository ⟨"con_", by decide⟩).space.dir sizeDigest [] := by decide
    rw [hdir]
    exact List.forall₂_same.mpr fun _ _ ↦ rfl
  · show ¬ ScaleTarget.same _ _ = true
    decide

end RunnerManager.Platform
