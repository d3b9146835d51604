import Mathlib.Logic.Relation
import RunnerManager.Domain.Path
import RunnerManager.Lib.Result

/-!
# Spellings of a configured path

Which texts `parse_for` accepts, by the parts between separators, and which texts it takes for one
path. Read `normalise_ok_iff` first: parsing keeps the root a text starts with and the parts it
names, so a change of spelling that keeps both keeps the path. `join_child` builds the same path
from a stored one without parsing it again.
-/

namespace RunnerManager.Domain

open RunnerManager.Text RunnerManager.Result

/-! ## Parts -/

/-- The texts between separators. -/
def PathPlatform.parts (platform : PathPlatform) (raw : List Char) : List (List Char) :=
  raw.splitOnP platform.isSeparator

def namedParts (parts : List (List Char)) : List (List Char) :=
  parts.filter fun part ↦ part ≠ [] && part ≠ ['.']

theorem namedParts_skip {part : List Char} {parts : List (List Char)}
    (h : part = [] ∨ part = ['.']) : namedParts (part :: parts) = namedParts parts := by
  refine List.filter_cons_of_neg ?_
  rcases h with rfl | rfl <;> decide

theorem namedParts_keep {part : List Char} {parts : List (List Char)}
    (h : ¬ (part = [] ∨ part = ['.'])) :
    namedParts (part :: parts) = part :: namedParts parts :=
  List.filter_cons_of_pos (by simpa using h)

theorem namedParts_append (left right : List (List Char)) :
    namedParts (left ++ right) = namedParts left ++ namedParts right :=
  List.filter_append ..

/-- The root a first part stands for: nothing before the first `/`, or a drive. -/
def PathPlatform.rootOf : PathPlatform → List Char → Option (List Char)
  | unix, [] => some ['/']
  | windows, [drive, ':'] => if drive.isAlpha then some [drive.toUpper, ':', '\\'] else none
  | _, _ => none

/-- The text is read as this root and these components. -/
structure Reads (platform : PathPlatform) (raw root : List Char)
    (components : List (List Char)) : Prop where
  noNul : '\x00' ∉ raw
  root : (platform.parts raw).head?.bind platform.rootOf = some root
  named : components = namedParts (platform.parts raw).tail
  nonempty : components ≠ []
  kept : ∀ component ∈ components, KeptComponent platform component

section Texts

variable {platform : PathPlatform} {raw root text : List Char} {components : List (List Char)}

theorem separator_plain {c : Char} (h : platform.isSeparator c = true) :
    isWhitespace c = false ∧ c ≠ '\x00' := by
  have hslash : c = '\\' ∨ c = '/' := by
    cases platform with
    | windows => simpa [PathPlatform.isSeparator] using h
    | unix => exact .inr (by simpa [PathPlatform.isSeparator] using h)
  rcases hslash with rfl | rfl <;> decide

theorem letter_plain {c : Char} (h : c.isAlpha = true) :
    PathPlatform.windows.isSeparator c = false ∧ c ≠ '\x00' := by
  have hother : c ≠ '\\' ∧ c ≠ '/' ∧ c ≠ '\x00' := by
    refine ⟨?_, ?_, ?_⟩ <;> rintro rfl <;> exact absurd h (by decide)
  exact ⟨by simp [PathPlatform.isSeparator, hother.1, hother.2.1], hother.2.2⟩

theorem root_of_some {front : List Char} (h : platform.rootOf front = some root) :
    (∀ c ∈ front, platform.isSeparator c = false) ∧ '\x00' ∉ front ∧
      ∃ shown, root = shown ++ [platform.separator] ∧
        ∀ c ∈ shown, platform.isSeparator c = false := by
  unfold PathPlatform.rootOf at h
  split at h
  · cases h
    exact ⟨by simp, by simp, [], rfl, by simp⟩
  · next drive =>
    split_ifs at h with halpha
    cases h
    obtain ⟨-, -, hupper, -, -⟩ := toUpper_alpha halpha
    have hdrive := letter_plain halpha
    refine ⟨?_, ?_, [drive.toUpper, ':'], rfl, ?_⟩
    · intro c hc
      rcases List.mem_cons.mp hc with rfl | hc
      · exact hdrive.1
      · rw [List.mem_singleton.mp hc]
        decide
    · simp [hdrive.2.symm]
    · intro c hc
      rcases List.mem_cons.mp hc with rfl | hc
      · exact hupper
      · rw [List.mem_singleton.mp hc]
        decide
  · cases h

/-- A text has a root where its first part stands for one and a separator follows. -/
theorem path_prefix_ok_iff {rest : List Char} : pathPrefix platform raw = .ok (root, rest) ↔
    ∃ front separator, platform.rootOf front = some root ∧
      platform.isSeparator separator = true ∧ raw = front ++ separator :: rest := by
  constructor
  · intro h
    cases platform with
    | unix =>
      rw [pathPrefix, unixPrefix.eq_def] at h
      split at h
      · cases h
        exact ⟨[], '/', rfl, rfl, rfl⟩
      · cases h
    | windows =>
      rw [pathPrefix, windowsPrefix.eq_def] at h
      split at h
      · next first second tail =>
        split_ifs at h with hunc hdevice hdrive
        split at h
        · next c tail =>
          split_ifs at h with hc
          cases h
          obtain ⟨hfirst, rfl⟩ : first.isAlpha = true ∧ second = ':' := by
            simpa using hdrive
          exact ⟨[first, ':'], c, by simp [PathPlatform.rootOf, hfirst], hc, rfl⟩
        · cases h
      · cases h
  · rintro ⟨front, separator, hroot, hseparator, rfl⟩
    unfold PathPlatform.rootOf at hroot
    split at hroot
    · cases hroot
      have hslash : separator = '/' := by simpa [PathPlatform.isSeparator] using hseparator
      rw [hslash]
      rfl
    · next drive =>
      split_ifs at hroot with halpha
      cases hroot
      have hplain := (letter_plain halpha).1
      simp [pathPrefix, windowsPrefix, hplain, halpha, hseparator]
    · cases hroot

theorem collect_components_iff {parts : List (List Char)} :
    collectComponents raw platform parts = .ok components ↔
      components = namedParts parts ∧
        ∀ component ∈ components, KeptComponent platform component := by
  constructor
  · intro h
    refine ⟨?_, fun component hcomponent ↦ (collect_components_kept h component hcomponent).2⟩
    induction parts generalizing components with
    | nil =>
      cases h
      rfl
    | cons part parts ih =>
      rw [collectComponents] at h
      split_ifs at h with hskip hparent
      · rw [ih h, namedParts_skip hskip]
      · simp only [bind_eq_ok, pure_eq_ok] at h
        obtain ⟨_, -, others, hothers, rfl⟩ := h
        rw [ih hothers, namedParts_keep hskip]
  · rintro ⟨rfl, hkept⟩
    induction parts with
    | nil => rfl
    | cons part parts ih =>
      rw [collectComponents]
      by_cases hskip : part = [] ∨ part = ['.']
      · rw [namedParts_skip hskip] at hkept ⊢
        rw [if_pos hskip, ih hkept]
      · rw [namedParts_keep hskip] at hkept ⊢
        obtain ⟨-, -, hparent, hvalid⟩ := hkept part List.mem_cons_self
        rw [if_neg hskip, if_neg hparent, hvalid,
          ih fun component hcomponent ↦ hkept component (List.mem_cons_of_mem _ hcomponent)]
        rfl

theorem parts_join (before after : List Char) {separator : Char}
    (hseparator : platform.isSeparator separator = true) :
    platform.parts (before ++ separator :: after) =
      platform.parts before ++ platform.parts after :=
  List.splitOnP_append_cons before after hseparator

theorem parts_ne_nil (raw : List Char) : platform.parts raw ≠ [] :=
  List.splitOnP_ne_nil _ raw

theorem parts_single (h : ∀ c ∈ raw, platform.isSeparator c = false) : platform.parts raw = [raw] :=
  List.splitOnP_eq_singleton h

theorem normalise_ok_iff : normalise raw platform = .ok text ↔
    ∃ root components, Reads platform raw root components ∧
      text = root ++ [platform.separator].intercalate components := by
  constructor
  · intro h
    unfold normalise at h
    rw [ite_error_eq_ok, ite_error_eq_ok] at h
    obtain ⟨-, hnul, h⟩ := h
    simp only [bind_eq_ok, Prod.exists] at h
    obtain ⟨root, rest, hfront, components, hcollect, h⟩ := h
    rw [ite_error_eq_ok, pure_eq_ok] at h
    obtain ⟨hnonempty, rfl⟩ := h
    obtain ⟨hcomponents, hkept⟩ := collect_components_iff.mp hcollect
    obtain ⟨front, separator, hroot, hseparator, rfl⟩ := path_prefix_ok_iff.mp hfront
    have hparts : platform.parts (front ++ separator :: rest) = front :: platform.parts rest := by
      rw [parts_join front rest hseparator, parts_single (root_of_some hroot).1]
      rfl
    refine ⟨root, components, ⟨by simpa using hnul, ?_, ?_, hnonempty, hkept⟩, rfl⟩
    · rw [hparts]
      exact hroot
    · rw [hparts]
      exact hcomponents
  · rintro ⟨root, components, hreads, rfl⟩
    cases hparts : platform.parts raw with
    | nil => exact absurd hparts (parts_ne_nil raw)
    | cons front tail =>
      have hroot := hreads.root
      have hcomponents := hreads.named
      rw [hparts] at hroot hcomponents
      have htail : tail ≠ [] := by
        rintro rfl
        exact hreads.nonempty hcomponents
      obtain ⟨separator, rest, hseparator, rfl, hrest⟩ := exists_of_splitOnP_cons hparts htail
      have hfront : pathPrefix platform (front ++ separator :: rest) = .ok (root, rest) :=
        path_prefix_ok_iff.mpr ⟨front, separator, hroot, hseparator, rfl⟩
      have hcollect : normaliseComponents (front ++ separator :: rest) rest platform =
          .ok components := by
        rw [normaliseComponents, hrest]
        exact collect_components_iff.mpr ⟨hcomponents, hreads.kept⟩
      have hvisible : trim (front ++ separator :: rest) ≠ [] := by
        rw [Ne, trim_eq_nil_iff]
        intro hall
        have hspace := hall separator (by simp)
        rw [(separator_plain hseparator).1] at hspace
        cases hspace
      rw [normalise, if_neg hvisible, if_neg (by simpa using hreads.noNul)]
      simp only [hfront, hcollect, bind, Except.bind]
      rw [if_neg hreads.nonempty]
      rfl

/-! ## The shape of an accepted path -/

/-- A component that reads as it is stored. -/
structure PlainComponent (platform : PathPlatform) (component : List Char) : Prop where
  nonempty : component ≠ []
  notHere : component ≠ ['.']
  notParent : component ≠ ['.', '.']
  noSeparator : ∀ c ∈ component, platform.isSeparator c = false
  noNul : '\x00' ∉ component
  noReservedCharacter : platform = .windows → ∀ c ∈ component,
    c ∉ windowsReservedCharacters ∧ isControl c = false
  end_kept : platform = .windows → component.getLast? ≠ some ' ' ∧ component.getLast? ≠ some '.'
  noDevice : platform = .windows → ∀ name ∈ windowsReservedNames,
    foldAscii (componentStem component) ≠ foldAscii name.toList

/-- What the root of a stored path looks like. -/
def IsRoot (platform : PathPlatform) (root : List Char) : Prop :=
  match platform with
  | .unix => root = ['/']
  | .windows => ∃ drive, drive.isUpper = true ∧ root = [drive, ':', '\\']

theorem windows_component {component : List Char}
    (h : validateComponent component .windows = .ok ()) :
    (∀ c ∈ component, c ∉ windowsReservedCharacters ∧ isControl c = false) ∧
      (component.getLast? ≠ some ' ' ∧ component.getLast? ≠ some '.') ∧
      ∀ name ∈ windowsReservedNames,
        foldAscii (componentStem component) ≠ foldAscii name.toList := by
  unfold validateComponent at h
  split at h
  · cases h
  · rw [if_neg (by decide)] at h
    split at h
    · cases h
    · next hfind =>
      rw [ite_error_eq_ok, ite_error_eq_ok, not_or] at h
      obtain ⟨hend, hname, -⟩ := h
      refine ⟨fun c hc ↦ ?_, hend, fun name hmem heq ↦ hname ?_⟩
      · have hplain := List.find?_eq_none.mp hfind c hc
        simpa using hplain
      · exact List.any_eq_true.mpr ⟨name, hmem, by simpa using heq⟩

theorem plain_of_kept {component : List Char} (hkept : KeptComponent platform component)
    (hseparator : ∀ c ∈ component, platform.isSeparator c = false) :
    PlainComponent platform component := by
  obtain ⟨hne, hdot, hparent, hvalid⟩ := hkept
  refine ⟨hne, hdot, hparent, hseparator, validate_component_no_nul hvalid, ?_, ?_, ?_⟩
  · rintro rfl
    exact (windows_component hvalid).1
  · rintro rfl
    exact (windows_component hvalid).2.1
  · rintro rfl
    exact (windows_component hvalid).2.2

theorem toUpper_isUpper {c : Char} (h : c.isAlpha = true) : c.toUpper.isUpper = true := by
  have hc : c.toNat < 128 := alpha_ascii h
  exact ascii_induction (P := fun c ↦ c.isAlpha = true → c.toUpper.isUpper = true)
    (by decide) hc h

theorem is_root_of {front : List Char} (h : platform.rootOf front = some root) :
    IsRoot platform root := by
  unfold PathPlatform.rootOf at h
  split at h
  · cases h
    rfl
  · next drive =>
    split_ifs at h with halpha
    cases h
    exact ⟨drive.toUpper, toUpper_isUpper halpha, rfl⟩
  · cases h

namespace Reads

theorem front (h : Reads platform raw root components) :
    ∃ front, (platform.parts raw).head? = some front ∧ platform.rootOf front = some root :=
  Option.bind_eq_some_iff.mp h.root

theorem plain (h : Reads platform raw root components) :
    ∀ component ∈ components, PlainComponent platform component := by
  intro component hcomponent
  have hmem : component ∈ platform.parts raw := by
    rw [h.named] at hcomponent
    exact List.mem_of_mem_tail (List.mem_of_mem_filter hcomponent)
  exact plain_of_kept (h.kept component hcomponent) (splitOnP_parts raw component hmem)

theorem parts_stored (h : Reads platform raw root components) :
    namedParts (platform.parts (root ++ [platform.separator].intercalate components)).tail =
      components := by
  obtain ⟨front, -, hroot⟩ := h.front
  obtain ⟨-, -, shown, rfl, hshown⟩ := root_of_some hroot
  have hseparator : platform.isSeparator platform.separator = true := by
    cases platform <;> decide
  have hfree : ∀ part ∈ components, ∀ c ∈ part, platform.isSeparator c = false :=
    fun part hpart ↦ (h.plain part hpart).noSeparator
  rw [List.append_assoc, List.singleton_append, parts_join shown _ hseparator, parts_single hshown,
    PathPlatform.parts, splitOnP_intercalate hseparator h.nonempty hfree, List.singleton_append,
    List.tail_cons]
  exact List.filter_eq_self.mpr fun part hpart ↦ by
    simp [(h.plain part hpart).nonempty, (h.plain part hpart).notHere]

end Reads

/-! ## Spellings of one path -/

/-- One change of spelling. -/
inductive Respelled (platform : PathPlatform) : List Char → List Char → Prop
  | separator (before after : List Char) {s t : Char} (hs : platform.isSeparator s = true)
      (ht : platform.isSeparator t = true) :
      Respelled platform (before ++ s :: after) (before ++ t :: after)
  | repeated (before after : List Char) {s t : Char} (hs : platform.isSeparator s = true)
      (ht : platform.isSeparator t = true) :
      Respelled platform (before ++ s :: after) (before ++ s :: t :: after)
  | trailing (before : List Char) {s : Char} (hs : platform.isSeparator s = true) :
      Respelled platform before (before ++ [s])
  | here (before after : List Char) {s t : Char} (hs : platform.isSeparator s = true)
      (ht : platform.isSeparator t = true) :
      Respelled platform (before ++ s :: after) (before ++ s :: '.' :: t :: after)
  | trailingHere (before : List Char) {s : Char} (hs : platform.isSeparator s = true) :
      Respelled platform (before ++ [s]) (before ++ [s, '.'])
  | drive (after : List Char) {c d : Char} (hplatform : platform = .windows)
      (hc : c.isAlpha = true) (hd : d.isAlpha = true) (hsame : c.toUpper = d.toUpper) :
      Respelled platform (c :: ':' :: after) (d :: ':' :: after)

/-- The root and the named parts of a text. -/
def PathPlatform.key (platform : PathPlatform) (raw : List Char) :
    Option (List Char) × List (List Char) :=
  ((platform.parts raw).head?.bind platform.rootOf, namedParts (platform.parts raw).tail)

theorem reads_iff_key : Reads platform raw root components ↔ '\x00' ∉ raw ∧
    platform.key raw = (some root, components) ∧ components ≠ [] ∧
      ∀ component ∈ components, KeptComponent platform component := by
  constructor
  · intro h
    exact ⟨h.noNul, Prod.ext h.root h.named.symm, h.nonempty, h.kept⟩
  · rintro ⟨hnul, hkey, hnonempty, hkept⟩
    obtain ⟨hroot, hnamed⟩ := Prod.mk.inj hkey
    exact ⟨hnul, hroot, hnamed.symm, hnonempty, hkept⟩

theorem key_join (before after : List Char) {s : Char} (hs : platform.isSeparator s = true) :
    platform.key (before ++ s :: after) = ((platform.key before).1,
      (platform.key before).2 ++ namedParts (platform.parts after)) := by
  cases hparts : platform.parts before with
  | nil => exact absurd hparts (parts_ne_nil before)
  | cons first rest =>
    rw [PathPlatform.key, PathPlatform.key, parts_join before after hs, hparts]
    simp [namedParts_append]

theorem dot_no_separator (platform : PathPlatform) : platform.isSeparator '.' = false := by
  cases platform <;> decide

theorem named_here (after : List Char) {t : Char} (ht : platform.isSeparator t = true) :
    namedParts (platform.parts ('.' :: t :: after)) = namedParts (platform.parts after) := by
  have hdot : platform.parts ['.'] = [['.']] :=
    parts_single fun c hc ↦ List.mem_singleton.mp hc ▸ dot_no_separator platform
  have hparts := parts_join ['.'] after ht
  rw [hdot, List.singleton_append, List.singleton_append] at hparts
  rw [hparts, namedParts_skip (.inr rfl)]

/-- A change of spelling keeps the key. -/
theorem Respelled.key_eq {other : List Char} (h : Respelled platform raw other) :
    platform.key raw = platform.key other := by
  have hnil : platform.parts [] = [[]] := parts_single (by simp)
  have hnothing : namedParts (platform.parts []) = [] := by
    rw [hnil]
    rfl
  cases h with
  | separator before after hs ht => rw [key_join before after hs, key_join before after ht]
  | @repeated before after s t hs ht =>
    rw [key_join before after hs, key_join before (t :: after) hs]
    have hempty : platform.parts (t :: after) = [] :: platform.parts after := by
      have hjoin := parts_join [] after ht
      rwa [hnil] at hjoin
    rw [hempty, namedParts_skip (.inl rfl)]
  | trailing before hs =>
    rw [key_join raw [] hs, hnothing, List.append_nil]
  | @here before after s t hs ht =>
    rw [key_join before after hs, key_join before ('.' :: t :: after) hs, named_here after ht]
  | @trailingHere before s hs =>
    have hdot : namedParts (platform.parts ['.']) = [] := by
      rw [parts_single fun c hc ↦ List.mem_singleton.mp hc ▸ dot_no_separator platform]
      rfl
    rw [key_join before [] hs, key_join before ['.'] hs, hnothing, hdot]
  | @drive after c d hplatform hc hd hsame =>
    subst hplatform
    have hfront (drive : Char) (hdrive : drive.isAlpha = true) :
        PathPlatform.windows.parts (drive :: ':' :: after) =
          (PathPlatform.windows.parts after).modifyHead (drive :: ':' :: ·) := by
      have hplain := (letter_plain hdrive).1
      rw [PathPlatform.parts, List.splitOnP_cons_eq_if_modifyHead,
        List.splitOnP_cons_eq_if_modifyHead]
      have hcolon : PathPlatform.windows.isSeparator ':' = false := by decide
      simp [hplain, hcolon, PathPlatform.parts, Function.comp_def]
    rw [PathPlatform.key, PathPlatform.key, hfront c hc, hfront d hd]
    cases hparts : PathPlatform.windows.parts after with
    | nil => exact absurd hparts (parts_ne_nil after)
    | cons first rest =>
      cases first with
      | nil => simp [PathPlatform.rootOf, hc, hd, hsame]
      | cons e first => simp [PathPlatform.rootOf]

theorem Respelled.nul_iff {other : List Char} (h : Respelled platform raw other) :
    '\x00' ∈ raw ↔ '\x00' ∈ other := by
  have hplain {c : Char} (hc : platform.isSeparator c = true) : ¬ '\x00' = c :=
    fun heq ↦ (separator_plain hc).2 heq.symm
  cases h with
  | separator before after hs ht => simp [hplain hs, hplain ht]
  | repeated before after hs ht => simp [hplain hs, hplain ht]
  | trailing before hs => simp [hplain hs]
  | here before after hs ht => simp [hplain hs, hplain ht]
  | trailingHere before hs => simp [hplain hs]
  | @drive after c d hplatform hc hd hsame =>
    have hletter {c : Char} (hc : c.isAlpha = true) : ¬ '\x00' = c :=
      fun heq ↦ (letter_plain hc).2 heq.symm
    simp [hletter hc, hletter hd]

theorem Respelled.normalise_iff {other : List Char} (h : Respelled platform raw other) :
    normalise raw platform = .ok text ↔ normalise other platform = .ok text := by
  simp only [normalise_ok_iff, reads_iff_key, h.key_eq, h.nul_iff]

theorem normalise_of_spellings {other : List Char}
    (h : Relation.EqvGen (Respelled platform) raw other) :
    normalise raw platform = .ok text ↔ normalise other platform = .ok text := by
  induction h with
  | rel raw other hstep => exact hstep.normalise_iff
  | refl raw => exact Iff.rfl
  | symm raw other _ ih => exact ih.symm
  | trans raw between other _ _ ihleft ihright => exact ihleft.trans ihright

/-! ## Children -/

def notASingleComponent (platform : PathPlatform) (name : List Char) : Bool :=
  name = [] || name = ['.'] || name = ['.', '.'] || name.any platform.isSeparator

theorem reads_child (h : Reads platform raw root components) {name : List Char}
    (hsingle : notASingleComponent platform name = false)
    (hvalid : validateComponent name platform = .ok ()) :
    Reads platform (raw ++ platform.separator :: name) root (components ++ [name]) := by
  have hseparator : platform.isSeparator platform.separator = true := by
    cases platform <;> decide
  simp only [notASingleComponent, Bool.or_eq_false_iff, decide_eq_false_iff_not] at hsingle
  obtain ⟨⟨⟨hne, hdot⟩, hparent⟩, hany⟩ := hsingle
  have hfree : ∀ c ∈ name, platform.isSeparator c = false := by simpa using hany
  obtain ⟨hnul, hkey, hnonempty, hkept⟩ := reads_iff_key.mp h
  have hnamed : namedParts (platform.parts name) = [name] := by
    rw [parts_single hfree, namedParts_keep (by simp [hne, hdot])]
    rfl
  refine reads_iff_key.mpr ⟨?_, ?_, by simp, ?_⟩
  · rw [List.mem_append, List.mem_cons, not_or, not_or]
    exact ⟨hnul, (separator_plain hseparator).2.symm, validate_component_no_nul hvalid⟩
  · rw [key_join raw name hseparator, hkey, hnamed]
  · intro component hcomponent
    rcases List.mem_append.mp hcomponent with hcomponent | hcomponent
    · exact hkept component hcomponent
    · rw [List.mem_singleton.mp hcomponent]
      exact ⟨hne, hdot, hparent, hvalid⟩

theorem normalise_child {name : List Char} (h : normalise text platform = .ok text)
    (hsingle : notASingleComponent platform name = false)
    (hvalid : validateComponent name platform = .ok ()) :
    normalise (text ++ platform.separator :: name) platform =
      .ok (text ++ platform.separator :: name) := by
  obtain ⟨root, components, hreads, htext⟩ := normalise_ok_iff.mp h
  refine normalise_ok_iff.mpr
    ⟨root, components ++ [name], reads_child hreads hsingle hvalid, ?_⟩
  rw [intercalate_concat hreads.nonempty, ← List.append_assoc, ← htext]

end Texts

namespace LocalAbsolutePath

def joinChild (path : LocalAbsolutePath) (name : String) :
    Except LocalPathError LocalAbsolutePath :=
  if hsingle : notASingleComponent path.platform name.toList = true then
    .error (.notASingleComponent name)
  else
    match hvalid : validateComponent name.toList path.platform with
    | .error e => .error e
    | .ok () => .ok {
        text := String.ofList (path.text.toList ++ path.platform.separator :: name.toList)
        platform := path.platform
        canonical := by
          simpa using normalise_child path.canonical (by simpa using hsingle) hvalid }

def components (path : LocalAbsolutePath) : List (List Char) :=
  namedParts (path.platform.parts path.text.toList).tail

/-- The text of a root, a separator and a name. -/
def withName (path : LocalAbsolutePath) (name : String) : String :=
  String.ofList (path.text.toList ++ path.platform.separator :: name.toList)

variable {path child : LocalAbsolutePath} {name raw : String} {platform : PathPlatform}

theorem parseFor_ok_iff : parseFor raw platform = .ok path ↔
    path.platform = platform ∧ normalise raw.toList platform = .ok path.text.toList := by
  rw [parseFor]
  split
  · next e h => simp [h]
  · next text h =>
    constructor
    · intro hok
      cases hok
      exact ⟨rfl, by simpa using h⟩
    · rintro ⟨hplatform, htext⟩
      have hsame : text = path.text.toList := Except.ok.inj (h.symm.trans htext)
      refine congrArg Except.ok (LocalAbsolutePath.ext ?_ hplatform.symm)
      show String.ofList text = path.text
      rw [hsame, String.ofList_toList]

theorem reads_of_parseFor (h : parseFor raw platform = .ok path) :
    ∃ root, Reads platform raw.toList root path.components ∧
      path.text.toList = root ++ [platform.separator].intercalate path.components := by
  obtain ⟨rfl, hnormal⟩ := parseFor_ok_iff.mp h
  obtain ⟨root, components, hreads, htext⟩ := normalise_ok_iff.mp hnormal
  have hcomponents : path.components = components := by
    rw [LocalAbsolutePath.components, htext, hreads.parts_stored]
  rw [hcomponents]
  exact ⟨root, hreads, htext⟩

theorem join_child_ok_iff : path.joinChild name = .ok child ↔
    notASingleComponent path.platform name.toList = false ∧
      validateComponent name.toList path.platform = .ok () ∧
      child.platform = path.platform ∧ child.text = path.withName name := by
  rw [joinChild]
  split_ifs with hsingle
  · simp [hsingle]
  · split
    · next e hvalid => simp [hvalid]
    · next hvalid =>
      rw [Except.ok.injEq]
      constructor
      · rintro rfl
        exact ⟨by simpa using hsingle, hvalid, rfl, rfl⟩
      · rintro ⟨-, -, hplatform, htext⟩
        exact LocalAbsolutePath.ext htext.symm hplatform.symm

theorem join_child_iff_parse : path.joinChild name = .ok child ↔
    (∀ c ∈ name.toList, path.platform.isSeparator c = false) ∧
      parseFor (path.withName name) path.platform = .ok child ∧
      child.components.length = path.components.length + 1 := by
  obtain ⟨root, hreads, htext⟩ := reads_of_parseFor path.parseFor_text
  have hwith : (path.withName name).toList =
      path.text.toList ++ path.platform.separator :: name.toList := by simp [withName]
  have hseparator : path.platform.isSeparator path.platform.separator = true := by
    cases path.platform <;> decide
  constructor
  · intro hjoin
    obtain ⟨hsingle, hvalid, hplatform, hchild⟩ := join_child_ok_iff.mp hjoin
    have hparse : parseFor (path.withName name) path.platform = .ok child := by
      rw [← hchild, ← hplatform]
      exact child.parseFor_text
    obtain ⟨childRoot, hchildReads, -⟩ := reads_of_parseFor hparse
    have hgrown := (reads_child hreads hsingle hvalid).named
    rw [← hwith] at hgrown
    have hcomponents : child.components = path.components ++ [name.toList] :=
      hchildReads.named.trans hgrown.symm
    refine ⟨?_, hparse, ?_⟩
    · simp only [notASingleComponent, Bool.or_eq_false_iff] at hsingle
      simpa using hsingle.2
    · rw [hcomponents, List.length_append, List.length_singleton]
  · rintro ⟨hfree, hparse, hlength⟩
    obtain ⟨childRoot, hchildReads, hchildText⟩ := reads_of_parseFor hparse
    have hkey := (reads_iff_key.mp hchildReads).2.1
    rw [hwith, key_join _ _ hseparator, (reads_iff_key.mp hreads).2.1] at hkey
    obtain ⟨hroot, hcomponents⟩ := Prod.mk.inj hkey
    rw [parts_single hfree] at hcomponents
    -- The name adds one component, so it is itself that component.
    have hnamed : ¬ (name.toList = [] ∨ name.toList = ['.']) := by
      intro hskip
      rw [namedParts_skip hskip] at hcomponents
      rw [← hcomponents] at hlength
      simp [namedParts] at hlength
    rw [namedParts_keep hnamed] at hcomponents
    obtain ⟨-, -, hparent, hvalid⟩ := hchildReads.kept name.toList (by
      rw [← hcomponents]
      simp)
    rw [not_or] at hnamed
    have hsingle : notASingleComponent path.platform name.toList = false := by
      simp only [notASingleComponent, Bool.or_eq_false_iff, decide_eq_false_iff_not]
      exact ⟨⟨⟨hnamed.1, hnamed.2⟩, hparent⟩, by simpa using hfree⟩
    refine join_child_ok_iff.mpr ⟨hsingle, hvalid, (parseFor_ok_iff.mp hparse).1, ?_⟩
    have hnormal := normalise_child path.canonical hsingle hvalid
    rw [← hwith, (parseFor_ok_iff.mp hparse).2, Except.ok.injEq] at hnormal
    exact String.toList_inj.mp hnormal

end LocalAbsolutePath

open LocalAbsolutePath in
/-- The normal form of a configured path: what is accepted is accepted again as it is stored, under
the platform's root and with plain components; every spelling of it is the same path; and a name
without separators is joined exactly where parsing it behind the path names one more component,
and then to that path. -/
theorem path_normal_form (platform : PathPlatform) :
    (∀ raw path, parseFor raw platform = .ok path → parseFor path.text platform = .ok path ∧
      path.components ≠ [] ∧
      (∃ root, IsRoot platform root ∧
        path.text.toList = root ++ [platform.separator].intercalate path.components) ∧
      ∀ component ∈ path.components, PlainComponent platform component) ∧
    (∀ raw other : String, Relation.EqvGen (Respelled platform) raw.toList other.toList →
      ∀ path, parseFor raw platform = .ok path ↔ parseFor other platform = .ok path) ∧
    (∀ raw path, parseFor raw platform = .ok path → ∀ name child,
      path.joinChild name = .ok child ↔
        (∀ c ∈ name.toList, platform.isSeparator c = false) ∧
          parseFor (path.withName name) platform = .ok child ∧
          child.components.length = path.components.length + 1) := by
  refine ⟨fun raw path hparse ↦ ?_, fun raw other hspelling path ↦ ?_,
    fun raw path hparse name child ↦ ?_⟩
  · have hplatform := (parseFor_ok_iff.mp hparse).1
    obtain ⟨root, hreads, htext⟩ := reads_of_parseFor hparse
    obtain ⟨front, -, hroot⟩ := hreads.front
    refine ⟨?_, hreads.nonempty, ⟨root, is_root_of hroot, htext⟩, hreads.plain⟩
    rw [← hplatform]
    exact path.parseFor_text
  · rw [parseFor_ok_iff, parseFor_ok_iff, normalise_of_spellings hspelling]
  · obtain ⟨rfl, -⟩ := parseFor_ok_iff.mp hparse
    exact join_child_iff_parse

def rman : LocalAbsolutePath := ⟨"C:\\rman", .windows, by decide⟩

def rmanSlot : LocalAbsolutePath := ⟨"C:\\rman\\s1", .windows, by decide⟩

/-- A drive path typed in another way is the same path, and its child is the one a longer text
names. -/
theorem windows_spelling_joined :
    LocalAbsolutePath.parseFor "c:/rman\\.\\" .windows = .ok rman ∧
      LocalAbsolutePath.parseFor (rman.withName "s1") .windows = .ok rmanSlot := by
  have hparse : LocalAbsolutePath.parseFor "c:/rman\\.\\" .windows = .ok rman := by
    decide
  have hjoin : rman.joinChild "s1" = .ok rmanSlot := by decide
  have hform := (path_normal_form .windows).2.2 _ rman hparse "s1" rmanSlot
  exact ⟨hparse, (hform.mp hjoin).2.1⟩

/-- A name with a trailing separator is refused as a child although parsing it names one more
component. -/
theorem separated_name_refused : ¬ ∀ (path : LocalAbsolutePath) (name : String),
    (∃ child, path.joinChild name = .ok child) ↔
      ∃ child, LocalAbsolutePath.parseFor (path.withName name) path.platform = .ok child ∧
        child.components.length = path.components.length + 1 := by
  intro hclaim
  obtain ⟨child, hjoin⟩ := (hclaim ⟨"/a", .unix, by decide⟩ "x/").mpr
    ⟨⟨"/a/x", .unix, by decide⟩, by decide, by decide⟩
  have hsingle := (LocalAbsolutePath.join_child_ok_iff.mp hjoin).1
  exact absurd hsingle (by decide)

end RunnerManager.Domain
