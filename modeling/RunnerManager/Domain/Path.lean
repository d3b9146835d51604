import RunnerManager.Lib.Text

/-!
# Configured local paths

`crates/domain/src/path.rs`: the stored shape of an operator-configured path. Parsing
normalises the text and refuses remote, device, relative and traversing shapes. Read
`normalise_idem` first: a normalised text is accepted again and unchanged, which is what a
stored path relies on when its row is read back.
-/

namespace RunnerManager.Domain

open RunnerManager.Text

/-- Which path grammar a value is judged against. -/
inductive PathPlatform where
  | windows
  | unix
deriving DecidableEq

namespace PathPlatform

/-- The separator a stored path is written with. -/
def separator : PathPlatform → Char
  | windows => '\\'
  | unix => '/'

/-- The characters that end a component. -/
def isSeparator (platform : PathPlatform) (c : Char) : Bool :=
  match platform with
  | windows => c == '\\' || c == '/'
  | unix => c == '/'

end PathPlatform

/-- Why a text is not a path this product is willing to store. -/
inductive LocalPathError where
  | empty
  | notAbsolute (got : String)
  | rootPath (got : String)
  | traversal (got : String)
  | unc (got : String)
  | deviceNamespace (got : String)
  | unrepresentableCharacter (component : String) (found : Char)
  | trailingDotOrSpace (component : String)
  | reservedName (component : String)
  | notASingleComponent (got : String)
deriving DecidableEq

def windowsReservedCharacters : List Char :=
  ['<', '>', ':', '"', '|', '?', '*']

/-- Device names Windows resolves wherever they stand. -/
def windowsReservedNames : List String :=
  ["CON", "PRN", "AUX", "NUL", "COM1", "COM2", "COM3", "COM4", "COM5", "COM6", "COM7", "COM8",
    "COM9", "LPT1", "LPT2", "LPT3", "LPT4", "LPT5", "LPT6", "LPT7", "LPT8", "LPT9"]

/-- The part of a component before its first dot, without trailing spaces. -/
def componentStem (component : List Char) : List Char :=
  (component.takeWhile (· != '.')).rdropWhile (· == ' ')

/-- Refuse a component the platform cannot store as it reads. -/
def validateComponent (component : List Char) (platform : PathPlatform) :
    Except LocalPathError Unit :=
  match component.find? (· == '\x00') with
  | some found => .error (.unrepresentableCharacter (String.ofList component) found)
  | none =>
    if platform = .unix then .ok ()
    else
      match component.find? (fun c ↦ windowsReservedCharacters.contains c || isControl c) with
      | some found => .error (.unrepresentableCharacter (String.ofList component) found)
      | none =>
        if component.getLast? = some ' ' ∨ component.getLast? = some '.' then
          .error (.trailingDotOrSpace (String.ofList component))
        else if windowsReservedNames.any (fun name ↦
            foldAscii (componentStem component) == foldAscii name.toList) then
          .error (.reservedName (String.ofList component))
        else .ok ()

/-- The root of a Unix path and the rest of its text. -/
def unixPrefix : List Char → Except LocalPathError (List Char × List Char)
  | '/' :: rest => .ok (['/'], rest)
  | raw => .error (.notAbsolute (String.ofList raw))

/-- The two leading separators announce the device namespace. -/
def isDeviceMarker (marker after : Option Char) : Bool :=
  (marker == some '?' || marker == some '.') && after.any PathPlatform.windows.isSeparator

/-- The drive root of a Windows path and the rest of its text. -/
def windowsPrefix (raw : List Char) : Except LocalPathError (List Char × List Char) :=
  match raw with
  | first :: second :: rest =>
    if PathPlatform.windows.isSeparator first && PathPlatform.windows.isSeparator second then
      if isDeviceMarker rest[0]? rest[1]? then
        .error (.deviceNamespace (String.ofList raw))
      else .error (.unc (String.ofList raw))
    else if Char.isAlpha first && second == ':' then
      match rest with
      | c :: tail =>
        if PathPlatform.windows.isSeparator c then
          .ok ([Char.toUpper first, ':', '\\'], tail)
        else .error (.notAbsolute (String.ofList raw))
      | [] => .error (.notAbsolute (String.ofList raw))
    else .error (.notAbsolute (String.ofList raw))
  | _ => .error (.notAbsolute (String.ofList raw))

/-- The root a path of this platform starts with and the rest of its text. -/
def pathPrefix (platform : PathPlatform) (raw : List Char) :
    Except LocalPathError (List Char × List Char) :=
  match platform with
  | .windows => windowsPrefix raw
  | .unix => unixPrefix raw

/-- Drop empty and `.` components, refuse `..`, and validate the others. -/
def collectComponents (raw : List Char) (platform : PathPlatform) :
    List (List Char) → Except LocalPathError (List (List Char))
  | [] => .ok []
  | component :: rest =>
    if component = [] ∨ component = ['.'] then collectComponents raw platform rest
    else if component = ['.', '.'] then .error (.traversal (String.ofList raw))
    else do
      validateComponent component platform
      let components ← collectComponents raw platform rest
      return component :: components

/-- The components of the text after the root. -/
def normaliseComponents (raw rest : List Char) (platform : PathPlatform) :
    Except LocalPathError (List (List Char)) :=
  collectComponents raw platform (rest.splitOnP platform.isSeparator)

/-- The text `LocalAbsolutePath::parse_for` stores for `raw`. -/
def normalise (raw : List Char) (platform : PathPlatform) : Except LocalPathError (List Char) :=
  if trim raw = [] then .error .empty
  else if raw.contains '\x00' then
    .error (.unrepresentableCharacter (String.ofList raw) '\x00')
  else do
    let (root, rest) ← pathPrefix platform raw
    let components ← normaliseComponents raw rest platform
    if components = [] then .error (.rootPath (String.ofList raw))
    else return root ++ [platform.separator].intercalate components

/-! ## A normalised path is a fixed point -/

/-- The components `collectComponents` keeps. -/
def KeptComponent (platform : PathPlatform) (component : List Char) : Prop :=
  component ≠ [] ∧ component ≠ ['.'] ∧ component ≠ ['.', '.'] ∧
    validateComponent component platform = .ok ()

variable {platform : PathPlatform} {raw rest root : List Char} {parts components : List (List Char)}

theorem collect_components_kept (h : collectComponents raw platform parts = .ok components) :
    ∀ component ∈ components, component ∈ parts ∧ KeptComponent platform component := by
  induction parts generalizing components with
  | nil =>
    cases h
    simp
  | cons part parts ih =>
    rw [collectComponents] at h
    split_ifs at h with hskip hparent
    · exact fun component hcomponent ↦ (ih h component hcomponent).imp_left
        (List.mem_cons_of_mem _)
    · cases hvalid : validateComponent part platform with
      | error e => simp [hvalid, bind, Except.bind] at h
      | ok u =>
        cases hcollect : collectComponents raw platform parts with
        | error e => simp [hvalid, hcollect, bind, Except.bind] at h
        | ok others =>
          simp only [hvalid, hcollect, bind, Except.bind, pure, Except.pure,
            Except.ok.injEq] at h
          subst h
          rintro component (_ | ⟨_, hcomponent⟩)
          · push Not at hskip
            exact ⟨List.mem_cons_self, hskip.1, hskip.2, hparent, hvalid⟩
          · exact (ih hcollect component hcomponent).imp_left (List.mem_cons_of_mem _)

theorem collect_components_of_kept
    (h : ∀ component ∈ components, KeptComponent platform component) :
    collectComponents raw platform components = .ok components := by
  induction components with
  | nil => rfl
  | cons component components ih =>
    obtain ⟨hne, hdot, hparent, hvalid⟩ := h component List.mem_cons_self
    have hrest := ih fun c hc ↦ h c (List.mem_cons_of_mem _ hc)
    simp [collectComponents, hne, hdot, hparent, hvalid, hrest, bind, Except.bind, pure,
      Except.pure]

theorem validate_component_no_nul {component : List Char}
    (h : validateComponent component platform = .ok ()) : '\x00' ∉ component := by
  intro hmem
  unfold validateComponent at h
  split at h
  · cases h
  · next hnone => simpa using List.find?_eq_none.mp hnone _ hmem

theorem alpha_ascii {c : Char} (h : c.isAlpha = true) : c.toNat < 128 := by
  have hval : c.toNat = c.val.toNat := rfl
  delta Char.isAlpha Char.isUpper Char.isLower at h
  simp only [Bool.or_eq_true, Bool.and_eq_true, decide_eq_true_eq, ge_iff_le,
    UInt32.le_iff_toNat_le] at h
  have hbounds : 'Z'.val.toNat = 90 ∧ 'z'.val.toNat = 122 := ⟨rfl, rfl⟩
  omega

theorem toUpper_alpha {c : Char} (h : c.isAlpha = true) :
    c.toUpper.isAlpha = true ∧ c.toUpper.toUpper = c.toUpper ∧
      PathPlatform.windows.isSeparator c.toUpper = false ∧ isWhitespace c.toUpper = false ∧
      c.toUpper ≠ '\x00' := by
  have hc : c.toNat < 128 := alpha_ascii h
  exact ascii_induction (P := fun c ↦ c.isAlpha = true → c.toUpper.isAlpha = true ∧
    c.toUpper.toUpper = c.toUpper ∧ PathPlatform.windows.isSeparator c.toUpper = false ∧
    isWhitespace c.toUpper = false ∧ c.toUpper ≠ '\x00') (by decide) hc h

theorem path_prefix_root (h : pathPrefix platform raw = .ok (root, rest)) :
    (∀ tail, pathPrefix platform (root ++ tail) = .ok (root, tail)) ∧
      (∃ c ∈ root, isWhitespace c = false) ∧ '\x00' ∉ root := by
  cases platform with
  | unix =>
    rw [pathPrefix, unixPrefix.eq_def] at h
    split at h
    · cases h
      exact ⟨fun tail ↦ rfl, ⟨'/', by decide⟩, by decide⟩
    · cases h
  | windows =>
    rw [pathPrefix, windowsPrefix.eq_def] at h
    split at h
    · next first second tail =>
      split_ifs at h with hunc hdevice hdrive
      split at h
      · next c tail =>
        split_ifs at h with hc
        cases h
        obtain ⟨hfirst, hsecond⟩ : first.isAlpha = true ∧ second = ':' := by
          simpa using hdrive
        obtain ⟨halpha, hidem, hsep, hspace, hnul⟩ := toUpper_alpha hfirst
        refine ⟨fun tail ↦ ?_, ⟨first.toUpper, by simp, hspace⟩, ?_⟩
        · simp [pathPrefix, windowsPrefix, hsep, halpha, hidem,
            show PathPlatform.windows.isSeparator '\\' = true from rfl]
        · simp [hnul.symm]
      · cases h
    · cases h

/-- A normalised text is accepted again and unchanged. -/
theorem normalise_idem {text : List Char} (h : normalise raw platform = .ok text) :
    normalise text platform = .ok text := by
  unfold normalise at h
  split_ifs at h with hempty hnul
  cases hfront : pathPrefix platform raw with
  | error e => simp [hfront, bind, Except.bind] at h
  | ok split =>
    obtain ⟨root, rest⟩ := split
    cases hcollect : normaliseComponents raw rest platform with
    | error e => simp [hfront, hcollect, bind, Except.bind] at h
    | ok components =>
      simp only [hfront, hcollect, bind, Except.bind] at h
      split_ifs at h with hroot
      simp only [pure, Except.pure, Except.ok.injEq] at h
      subst h
      obtain ⟨hagain, ⟨c, hc, hspace⟩, hrootnul⟩ := path_prefix_root hfront
      have hkept := collect_components_kept hcollect
      have hsep : platform.isSeparator platform.separator = true ∧
          platform.separator ≠ '\x00' := by
        cases platform <;> decide
      set body := [platform.separator].intercalate components with hbody
      have hvisible : trim (root ++ body) ≠ [] := by
        rw [Ne, trim_eq_nil_iff]
        intro hall
        simp [hall c (List.mem_append_left _ hc)] at hspace
      have hclean : '\x00' ∉ root ++ body := by
        rw [List.mem_append, not_or]
        refine ⟨hrootnul, fun hmem ↦ ?_⟩
        obtain hmem | ⟨part, hpart, hmem⟩ := mem_intercalate hmem
        · exact hsep.2 hmem.symm
        · exact validate_component_no_nul (hkept part hpart).2.2.2.2 hmem
      have hparts : normaliseComponents (root ++ body) body platform = .ok components := by
        rw [normaliseComponents, hbody, splitOnP_intercalate hsep.1 hroot
          fun part hpart ↦ splitOnP_parts rest part (hkept part hpart).1]
        exact collect_components_of_kept fun part hpart ↦ (hkept part hpart).2
      rw [normalise, if_neg hvisible, if_neg (by simpa using hclean)]
      simp only [hagain, hparts, bind, Except.bind]
      rw [if_neg hroot]
      rfl

theorem prefix_of_normalise {text : List Char} (h : normalise raw platform = .ok text) :
    ∃ split, pathPrefix platform raw = .ok split := by
  unfold normalise at h
  split_ifs at h with hempty hnul
  cases hfront : pathPrefix platform raw with
  | error e => simp [hfront, bind, Except.bind] at h
  | ok split => exact ⟨split, rfl⟩

theorem head_of_prefix {split : List Char × List Char} (h : pathPrefix platform raw = .ok split) :
    ∃ c, raw.head? = some c ∧ (c = '/' ↔ platform = .unix) := by
  cases platform with
  | unix =>
    rw [pathPrefix, unixPrefix.eq_def] at h
    split at h
    · exact ⟨'/', rfl, by simp⟩
    · cases h
  | windows =>
    rw [pathPrefix, windowsPrefix.eq_def] at h
    split at h
    · next first second tail =>
      split_ifs at h with hunc hdevice hdrive
      have halpha : first.isAlpha = true := by
        rw [Bool.and_eq_true] at hdrive
        exact hdrive.1
      refine ⟨first, rfl, iff_of_false ?_ (by decide)⟩
      rintro rfl
      exact absurd halpha (by decide)
    · cases h

theorem platform_unique {other : PathPlatform} {text otherText : List Char}
    (h : normalise raw platform = .ok text) (hother : normalise raw other = .ok otherText) :
    platform = other := by
  obtain ⟨split, hsplit⟩ := prefix_of_normalise h
  obtain ⟨otherSplit, hotherSplit⟩ := prefix_of_normalise hother
  obtain ⟨c, hc, hunix⟩ := head_of_prefix hsplit
  obtain ⟨d, hd, hotherUnix⟩ := head_of_prefix hotherSplit
  rw [hc, Option.some.injEq] at hd
  subst hd
  cases platform <;> cases other <;> simp_all

/-- A path this product stores: a text its own parser leaves unchanged. -/
structure LocalAbsolutePath where
  text : String
  platform : PathPlatform
  canonical : normalise text.toList platform = .ok text.toList

theorem w_canonical : normalise "/w".toList .unix = .ok "/w".toList := by decide

namespace LocalAbsolutePath

@[ext]
theorem ext {a b : LocalAbsolutePath} (htext : a.text = b.text)
    (hplatform : a.platform = b.platform) : a = b := by
  cases a
  cases b
  simp_all

instance : DecidableEq LocalAbsolutePath := fun a b ↦
  decidable_of_iff (a.text = b.text ∧ a.platform = b.platform)
    ⟨fun h ↦ ext h.1 h.2, fun h ↦ by simp [h]⟩

def parseFor (raw : String) (platform : PathPlatform) :
    Except LocalPathError LocalAbsolutePath :=
  match h : normalise raw.toList platform with
  | .error e => .error e
  | .ok text => .ok ⟨String.ofList text, platform, by simpa using normalise_idem h⟩

theorem parseFor_text (path : LocalAbsolutePath) :
    parseFor path.text path.platform = .ok path := by
  rw [parseFor]
  split
  · next e h => simp [path.canonical] at h
  · next text h =>
    rw [path.canonical] at h
    cases h
    simp

theorem parseFor_text_iff {path result : LocalAbsolutePath} {platform : PathPlatform} :
    parseFor path.text platform = .ok result ↔ path.platform = platform ∧ result = path := by
  constructor
  · intro h
    have hplatform : path.platform = platform := by
      rw [parseFor] at h
      split at h
      · cases h
      · next text htext => exact platform_unique path.canonical htext
    subst hplatform
    rw [parseFor_text] at h
    cases h
    exact ⟨rfl, rfl⟩
  · rintro ⟨rfl, rfl⟩
    exact parseFor_text result

end LocalAbsolutePath

end RunnerManager.Domain
