import RunnerManager.Agent.Providers
import RunnerManager.Lib.Result

/-!
# Pinned images

`OciProcesses::image_ready` and `resolve`: what becomes of an image that the policy's validator let
pass. `PinNames` is what a reference names, in its own terms; `isPinned_clean` says that an accepted
one names exactly one thing. The validator, the provider and the runtime do not agree on what a
pinned image is: `pins_usable` says for which references they do.
-/

namespace RunnerManager.Agent

open RunnerManager.Domain RunnerManager.Text RunnerManager.Result

/-! ## The provider -/

def imageFailure : FailureReason :=
  .isolationProvider .imageUnavailableOrIncompatible

namespace Oci

variable (lib : Decoders) (oci : OciProcesses)

/-- The arguments that fetch an image. -/
def pullArgs (reference : String) : List String :=
  ["pull", "--quiet", reference]

/-- The arguments that ask for the digests of an image. -/
def digestsArgs (reference : String) : List String :=
  ["image", "inspect", "--format", "\x7b\x7bjson .RepoDigests\x7d\x7d", reference]

/-- A list of texts, as `Vec<String>` reads it. -/
def textList : Json → Option (List String)
  | .array items => items.mapM asStr
  | _ => none

def imageReady (image : ImageReference) : RuntimeProgram Unit :=
  match rsplitOnce "@sha256:".toList image.reference.toList with
  | none => .fail imageFailure
  | some (_, expected) => do
    match ← (status oci (pullArgs image.reference)).outcome with
    | .error _ => failCapabilityOr lib oci imageFailure
    | .ok _ =>
      match ← (output lib oci (digestsArgs image.reference)).outcome with
      | .error _ => failCapabilityOr lib oci imageFailure
      | .ok digests =>
        match (lib.parseJson (trimmed digests)).bind textList with
        | none => .fail imageFailure
        | some values =>
          if values.any fun value ↦
              ("@sha256:".toList ++ expected).isSuffixOf value.toList then return ()
          else .fail imageFailure

def resolve (policy : ExecutionPolicy) : RuntimeProgram (Option ResolvedEnvironment) :=
  match policy with
  | .native => return none
  | .isolated backend image resources =>
    if backend ≠ .auto && backend ≠ .oci then
      .fail ProviderCapability.unsupported.refusal
    else do
      let capability ← rootlessReadyFor lib oci resources.diskMib
      if capability ≠ .ready then .fail capability.refusal
      else
        imageReady lib oci image
        return some ⟨.oci, image⟩

end Oci

/-! ## What a reference names -/

/-- What a reference pins: a digest, however its letters are written, or a version. -/
inductive Content where
  | digest (digest : List Char)
  | version (version : List Char)
deriving DecidableEq

/-- The name has no userinfo, and its last component no tag. -/
structure PlainName (name : List Char) : Prop where
  nonempty : name ≠ []
  userinfo : '@' ∉ name
  tag : ∀ part ∈ (name.splitOn '/').getLast?, ':' ∉ part

/-- What a text names, and by which name. -/
inductive PinNames : List Char → Option (List Char) × Content → Prop
  | image {name digest : List Char} (hname : PlainName name) (hdigest : isDigest digest = true) :
      PinNames (name ++ ("@sha256:".toList ++ digest)) (some name, .digest (foldAscii digest))
  | digest {digest : List Char} (hdigest : isDigest digest = true) :
      PinNames ("sha256:".toList ++ digest) (none, .digest (foldAscii digest))
  | version {version : List Char} (h : ∀ c ∈ version, safeChar c = true) :
      PinNames ("vm-version:".toList ++ version) (none, .version version)

/-- No character of the text is a blank or a control character, and it names one thing. -/
structure Clean (text : List Char) : Prop where
  visible : ∀ c ∈ text, isWhitespace c = false ∧ isControl c = false
  names : ∃! named, PinNames text named

/-- A command line reads the text as an option. -/
def isOption (text : List Char) : Bool :=
  text.head? = some '-'

def isLowerCase (text : List Char) : Bool :=
  text.all fun c ↦ c.toLower == c

variable {text before after name digest version separator : List Char} {c : Char}

/-! ### Splits -/

theorem rsplitOnce_eq_some (h : rsplitOnce separator text = some (before, after)) :
    text = before ++ (separator ++ after) := by
  induction text generalizing before after with
  | nil => cases h
  | cons c text ih =>
    rw [rsplitOnce] at h
    cases hrest : rsplitOnce separator text with
    | some parts =>
      rw [hrest] at h
      obtain ⟨rfl, rfl⟩ := Prod.mk.inj (Option.some.inj h)
      rw [ih hrest]
      rfl
    | none =>
      rw [hrest] at h
      dsimp only at h
      split at h
      case h_1 rest hdrop =>
        obtain ⟨rfl, rfl⟩ := Prod.mk.inj (Option.some.inj h)
        obtain ⟨front, htext, hfront⟩ := List.dropPrefix?_eq_some_iff.mp hdrop
        rw [htext, eq_of_beq hfront]
        rfl
      case h_2 => cases h

theorem rsplitOnce_eq_none (h : c ∉ text) : rsplitOnce (c :: separator) text = none := by
  induction text with
  | nil => rfl
  | cons d text ih =>
    rw [List.mem_cons, not_or] at h
    rw [rsplitOnce, ih h.2]
    have hdrop : List.dropPrefix? (d :: text) (c :: separator) = none := by
      rw [List.dropPrefix?]
      simp [Ne.symm h.1]
    simp [hdrop]

theorem rsplitOnce_append (h : c ∉ separator ++ after) (before : List Char) :
    rsplitOnce (c :: separator) (before ++ (c :: separator ++ after)) = some (before, after) := by
  induction before with
  | nil =>
    have hdrop : List.dropPrefix? (c :: (separator ++ after)) (c :: separator) = some after :=
      List.dropPrefix?_eq_some_iff.mpr ⟨c :: separator, rfl, by simp⟩
    rw [List.nil_append, List.cons_append, rsplitOnce, rsplitOnce_eq_none h]
    simp [hdrop]
  | cons d before ih =>
    rw [List.cons_append, rsplitOnce, ih]

/-! ### Accepted references -/

theorem safeChar_ascii (h : safeChar c = true) : c.toNat < 128 := by
  simp only [safeChar, Bool.or_eq_true, List.contains_eq_mem, decide_eq_true_eq] at h
  obtain h | h := h
  · exact alphanumeric_ascii h
  · exact (by decide : ∀ c ∈ ['.', '_', '-'], c.toNat < 128) c h

/-- What an accepted reference consists of. -/
def isPinChar (c : Char) : Bool :=
  safeChar c || ['/', ':', '@'].contains c

theorem pinChar_ascii (h : isPinChar c = true) : c.toNat < 128 := by
  simp only [isPinChar, Bool.or_eq_true, List.contains_eq_mem, decide_eq_true_eq] at h
  obtain h | h := h
  · exact safeChar_ascii h
  · exact (by decide : ∀ c ∈ ['/', ':', '@'], c.toNat < 128) c h

/-- The classes of an ASCII character, as the parts of a reference need them. -/
theorem classes_ascii (h : c.toNat < 128) :
    (isPinChar c = true → isWhitespace c = false ∧ isControl c = false) ∧
      (isAsciiHexdigit c = true → safeChar c = true) ∧
      (safeChar c = true → c ≠ ':' ∧ c ≠ '@' ∧ c ≠ '/') :=
  ascii_induction (P := fun c ↦
    (isPinChar c = true → isWhitespace c = false ∧ isControl c = false) ∧
      (isAsciiHexdigit c = true → safeChar c = true) ∧
      (safeChar c = true → c ≠ ':' ∧ c ≠ '@' ∧ c ≠ '/')) (by decide) h

theorem pinChar_visible (h : isPinChar c = true) : isWhitespace c = false ∧ isControl c = false :=
  (classes_ascii (pinChar_ascii h)).1 h

theorem pinChar_of_safe (h : safeChar c = true) : isPinChar c = true := by
  rw [isPinChar, h, Bool.true_or]

theorem hexdigit_safe (h : isAsciiHexdigit c = true) : safeChar c = true :=
  (classes_ascii (hexdigit_ascii h)).2.1 h

theorem safeChar_parts (h : safeChar c = true) : c ≠ ':' ∧ c ≠ '@' ∧ c ≠ '/' :=
  (classes_ascii (safeChar_ascii h)).2.2 h

theorem digit_safe (h : c.isDigit = true) : safeChar c = true := by
  refine hexdigit_safe ?_
  simp only [Char.isDigit, Bool.and_eq_true, decide_eq_true_eq] at h
  simp only [isAsciiHexdigit, Bool.or_eq_true, Bool.and_eq_true, decide_eq_true_eq, Char.le_def]
  exact .inl (.inl h)

theorem segment_safe {segment : List Char} (h : safeOciSegment segment = true) :
    ∀ c ∈ segment, safeChar c = true := by
  simp only [safeOciSegment, Bool.and_eq_true, List.all_eq_true] at h
  exact h.2

theorem digest_safe (h : isDigest digest = true) : ∀ c ∈ digest, safeChar c = true := by
  simp only [isDigest, Bool.and_eq_true, List.all_eq_true] at h
  exact fun c hc ↦ hexdigit_safe (h.2 c hc)

/-- A safe name consists of safe characters, slashes and a colon, and no tag ends it. -/
theorem ociName_parts (h : ociNameIsSafe name = true) :
    (∀ c ∈ name, isPinChar c = true) ∧ ∀ part ∈ (name.splitOn '/').getLast?, ':' ∉ part := by
  have hjoin : ['/'].intercalate (name.splitOn '/') = name := List.intercalate_splitOn ..
  have hchars (hparts : ∀ part ∈ name.splitOn '/', ∀ c ∈ part, isPinChar c = true) :
      ∀ c ∈ name, isPinChar c = true := by
    intro c hc
    rw [← hjoin] at hc
    obtain rfl | ⟨part, hpart, hc⟩ := mem_intercalate hc
    · decide
    · exact hparts part hpart c hc
  unfold ociNameIsSafe at h
  cases hsplit : name.splitOn '/' with
  | nil => exact absurd hsplit (List.splitOn_ne_nil '/' name)
  | cons first segments =>
    rw [hsplit] at h hchars
    simp only [Bool.and_eq_true, List.all_eq_true] at h
    obtain ⟨hfirst, hsegments⟩ := h
    have hrest : ∀ segment ∈ segments, ∀ c ∈ segment, safeChar c = true :=
      fun segment hsegment ↦ segment_safe (hsegments segment hsegment)
    have hlast (hpart : ':' ∉ first ∨ segments ≠ []) :
        ∀ part ∈ (first :: segments).getLast?, ':' ∉ part := by
      intro part hmem
      obtain rfl | ⟨rest, last, rfl⟩ := List.eq_nil_or_concat segments
      · obtain rfl : first = part := by simpa using hmem
        exact hpart.resolve_right fun h ↦ h rfl
      · rw [List.concat_eq_append] at hmem hrest
        rw [← List.cons_append, List.getLast?_concat] at hmem
        obtain rfl := Option.some.inj hmem
        exact fun hcolon ↦ (safeChar_parts (hrest last (by simp) ':' hcolon)).1 rfl
    have hall (hfirst : ∀ c ∈ first, isPinChar c = true) :
        ∀ part ∈ first :: segments, ∀ c ∈ part, isPinChar c = true :=
      List.forall_mem_cons.mpr
        ⟨hfirst, fun segment hsegment c hc ↦ pinChar_of_safe (hrest segment hsegment c hc)⟩
    cases hport : rsplitOnce [':'] first with
    | none =>
      rw [hport] at hfirst
      have hsafe := segment_safe hfirst
      refine ⟨hchars (hall fun c hc ↦ pinChar_of_safe (hsafe c hc)), hlast (.inl ?_)⟩
      exact fun hcolon ↦ (safeChar_parts (hsafe ':' hcolon)).1 rfl
    | some parts =>
      obtain ⟨host, port⟩ := parts
      rw [hport] at hfirst
      simp only [Bool.and_eq_true, List.all_eq_true, List.contains_eq_mem,
        decide_eq_true_eq] at hfirst
      obtain ⟨⟨⟨⟨hslash, -⟩, -⟩, hdigits⟩, hhost⟩ := hfirst
      have htext := rsplitOnce_eq_some hport
      refine ⟨hchars (hall fun c hc ↦ ?_), hlast (.inr ?_)⟩
      · rw [htext] at hc
        simp only [List.mem_append, List.mem_singleton] at hc
        obtain hc | rfl | hc := hc
        · exact pinChar_of_safe (segment_safe hhost c hc)
        · decide
        · exact pinChar_of_safe (digit_safe (hdigits c hc))
      · -- The slash of the name is in no part of it, so there is a second part.
        rintro rfl
        have hfirst : first ∈ name.splitOnP (· == '/') := by
          rw [show name.splitOnP (· == '/') = [first] from hsplit]
          exact List.mem_singleton_self first
        have hparts := splitOnP_parts name first hfirst
        have hname : name = first := by
          rw [← hjoin, hsplit]
          simp
        rw [hname] at hslash
        exact absurd (hparts '/' hslash) (by decide)

/-- What a text names, read off it: an at sign ends a name. -/
def reading (text : List Char) : Option (List Char) × Content :=
  if '@' ∈ text then
    (some (text.takeWhile (· != '@')),
      .digest (foldAscii ((text.dropWhile (· != '@')).drop "@sha256:".length)))
  else if "sha256:".toList.isPrefixOf text then
    (none, .digest (foldAscii (text.drop "sha256:".length)))
  else (none, .version (text.drop "vm-version:".length))

theorem PinNames.reading {named : Option (List Char) × Content} (h : PinNames text named) :
    reading text = named := by
  unfold Agent.reading
  cases h with
  | @image name digest hname hdigest =>
    have hall : ∀ c ∈ name, (c != '@') = true := by
      intro c hc
      rw [bne_iff_ne]
      rintro rfl
      exact hname.userinfo hc
    rw [if_pos (by simp), List.takeWhile_append_of_pos hall, List.dropWhile_append_of_pos hall]
    simp only [String.reduceToList, List.cons_append, List.takeWhile_cons_of_neg,
      List.dropWhile_cons_of_neg, bne_self_eq_false, Bool.false_eq_true, not_false_eq_true,
      List.append_nil]
    rfl
  | @digest digest hdigest =>
    have hat : '@' ∉ "sha256:".toList ++ digest := by
      rw [List.mem_append, not_or]
      exact ⟨by decide, fun hmem ↦ (safeChar_parts (digest_safe hdigest '@' hmem)).2.1 rfl⟩
    rw [if_neg hat, if_pos (List.isPrefixOf_iff_prefix.mpr (List.prefix_append _ _))]
    rfl
  | @version version hsafe =>
    have hat : '@' ∉ version := fun hmem ↦ (safeChar_parts (hsafe '@' hmem)).2.1 rfl
    rw [if_neg (by simp [hat]), if_neg (by simp)]
    rfl

/-- An accepted reference names something, in characters of its own. -/
theorem names_of_pinned (h : ImageReference.isPinned text = true) :
    (∃ named, PinNames text named) ∧ ∀ c ∈ text, isPinChar c = true := by
  unfold ImageReference.isPinned at h
  simp only [Bool.or_eq_true, Bool.and_eq_true, Option.any_eq_true] at h
  obtain ⟨⟨name, digest⟩, hsplit, h⟩ | ⟨-, ⟨digest, hdrop, hdigest⟩ | ⟨version, hdrop, h⟩⟩ := h
  · simp only [decide_eq_true_eq, Bool.not_eq_true', List.contains_eq_mem,
      decide_eq_false_iff_not] at h
    obtain ⟨⟨⟨⟨⟨hnil, hat⟩, -⟩, -⟩, hsafe⟩, hdigest⟩ := h
    obtain ⟨hchars, htag⟩ := ociName_parts hsafe
    rw [rsplitOnce_eq_some hsplit]
    refine ⟨⟨_, .image ⟨hnil, hat, htag⟩ hdigest⟩, fun c hc ↦ ?_⟩
    obtain hc | hc := List.mem_append.mp hc
    · exact hchars c hc
    · obtain hc | hc := List.mem_append.mp hc
      · exact (by decide : ∀ c ∈ "@sha256:".toList, isPinChar c = true) c hc
      · exact pinChar_of_safe (digest_safe hdigest c hc)
  · obtain ⟨front, rfl, hfront⟩ := List.dropPrefix?_eq_some_iff.mp hdrop
    rw [eq_of_beq hfront]
    refine ⟨⟨_, .digest hdigest⟩, fun c hc ↦ ?_⟩
    obtain hc | hc := List.mem_append.mp hc
    · exact (by decide : ∀ c ∈ "sha256:".toList, isPinChar c = true) c hc
    · exact pinChar_of_safe (digest_safe hdigest c hc)
  · obtain ⟨front, rfl, hfront⟩ := List.dropPrefix?_eq_some_iff.mp hdrop
    simp only [List.all_eq_true] at h
    rw [eq_of_beq hfront]
    refine ⟨⟨_, .version h.2⟩, fun c hc ↦ ?_⟩
    obtain hc | hc := List.mem_append.mp hc
    · exact (by decide : ∀ c ∈ "vm-version:".toList, isPinChar c = true) c hc
    · exact pinChar_of_safe (h.2 c hc)

theorem isPinned_clean (h : ImageReference.isPinned text = true) : Clean text := by
  obtain ⟨⟨named, hnamed⟩, hchars⟩ := names_of_pinned h
  refine ⟨fun c hc ↦ pinChar_visible (hchars c hc), named, hnamed, fun other hother ↦ ?_⟩
  rw [← hother.reading, hnamed.reading]

/-! ### One spelling -/

def capitals (text : List Char) : List Bool :=
  text.map Char.isUpper

theorem char_of_folded {d : Char} (hfold : c.toLower = d.toLower)
    (hupper : c.isUpper = d.isUpper) : c = d := by
  have hif (c : Char) : c.isUpper = decide (c.val ≥ 'A'.val ∧ c.val ≤ 'Z'.val) := by
    delta Char.isUpper
    simp
  rw [hif, hif, decide_eq_decide] at hupper
  unfold Char.toLower at hfold
  by_cases hc : c.val ≥ 'A'.val ∧ c.val ≤ 'Z'.val
  · rw [dif_pos hc, dif_pos (hupper.mp hc), Char.mk.injEq, UInt32.add_left_inj] at hfold
    exact Char.ext hfold
  · rwa [dif_neg hc, dif_neg fun hd ↦ hc (hupper.mpr hd)] at hfold

theorem eq_of_folded (hfold : foldAscii before = foldAscii after)
    (hcapitals : capitals before = capitals after) : before = after := by
  induction before generalizing after with
  | nil =>
    cases after with
    | nil => rfl
    | cons d after => cases hfold
  | cons c before ih =>
    cases after with
    | nil => cases hfold
    | cons d after =>
      obtain ⟨hc, hrest⟩ := List.cons.inj hfold
      obtain ⟨hupper, hcapitals⟩ := List.cons.inj hcapitals
      rw [char_of_folded hc hupper, ih hrest hcapitals]

/-- How what is named would be written in lower case. -/
def written (named : Option (List Char) × Content) : List Char :=
  match named.2 with
  | .digest digest =>
    named.1.elim "sha256:".toList (fun name ↦ name ++ "@sha256:".toList) ++ digest
  | .version version => "vm-version:".toList ++ version

theorem foldAscii_append (before after : List Char) :
    foldAscii (before ++ after) = foldAscii before ++ foldAscii after :=
  List.map_append

theorem PinNames.folded {named : Option (List Char) × Content} (h : PinNames text named) :
    foldAscii text = foldAscii (written named) := by
  cases h with
  | @image name digest =>
    show foldAscii (name ++ ("@sha256:".toList ++ digest)) =
      foldAscii (name ++ "@sha256:".toList ++ foldAscii digest)
    rw [← List.append_assoc, foldAscii_append, foldAscii_append _ (foldAscii digest),
      foldAscii_foldAscii]
  | @digest digest =>
    show foldAscii ("sha256:".toList ++ digest) =
      foldAscii ("sha256:".toList ++ foldAscii digest)
    rw [foldAscii_append, foldAscii_append, foldAscii_foldAscii]
  | version => exact Eq.refl _

theorem eq_iff_capitals {other : List Char} {named : Option (List Char) × Content}
    (h : PinNames text named) (hother : PinNames other named) :
    text = other ↔ capitals text = capitals other :=
  ⟨congrArg capitals, eq_of_folded (h.folded.trans hother.folded.symm)⟩

/-! ## What the runtime holds -/

/-- A runtime that may answer each command in some ways. -/
def answering (answers : RuntimeCommand → CommandAnswer → Prop) :
    Contract RuntimeCommand (fun _ ↦ CommandAnswer) Unit where
  requires _ _ := True
  steps _ c answer _ := answers c answer

/-- The command was run to a successful end. -/
def Succeeded (answer : CommandAnswer) : Prop :=
  ∃ output, answer = .ok output ∧ output.success = true

/-- The runtime is ready and holds the image of a digest: it fetches the image and reports its
digests in lower case. What it reads as an option is no image. -/
structure Holds (lib : Decoders) (oci : OciProcesses)
    (answers : RuntimeCommand → CommandAnswer → Prop) (digest : List Char) : Prop where
  ready : ∀ mib, (answering answers).wp (Oci.rootlessReadyFor lib oci mib)
    (fun result _ ↦ result = .ok .ready) ()
  pull : ∀ reference name answer, PinNames reference.toList (some name, .digest digest) →
    answers ⟨oci.runtime, Oci.pullArgs reference⟩ answer →
      (Succeeded answer ↔ isOption reference.toList = false)
  inspect : ∀ reference name answer, PinNames reference.toList (some name, .digest digest) →
    isOption reference.toList = false →
    answers ⟨oci.runtime, Oci.digestsArgs reference⟩ answer →
      ∃ text values, Oci.printed lib answer = .ok text ∧
        (lib.parseJson (trimmed text)).bind Oci.textList = some values ∧
        (∃ value ∈ values, ("@sha256:".toList ++ digest) <:+ value.toList) ∧
        ∀ value ∈ values, ∃ repository reported, value.toList =
          repository ++ ("@sha256:".toList ++ reported) ∧ isDigest reported = true ∧
            isLowerCase reported = true

/-- The reference has a name that is no option, and its digest is in lower case. -/
def Usable (reference : List Char) : Prop :=
  isOption reference = false ∧
    ∃ name digest, reference = name ++ ("@sha256:".toList ++ digest) ∧ isDigest digest = true ∧
      isLowerCase digest = true

namespace Oci

open Contract

variable {lib : Decoders} {oci : OciProcesses} {answers : RuntimeCommand → CommandAnswer → Prop}
  {image : ImageReference}

theorem failCapabilityOr_ready {α : Type} (h : Holds lib oci answers digest)
    (reason : FailureReason) : (answering answers).wp
      (failCapabilityOr lib oci reason : RuntimeProgram α) (fun result _ ↦ result = .error reason)
      () := by
  refine wp_seq (h.ready quotaProbeMib) (fun capability t hready ↦ ?_) fun e t hready ↦ ?_
  · obtain rfl := Except.ok.inj hready
    rfl
  · cases hready

theorem status_answers (args : List String) : (answering answers).wp (status oci args)
    (fun result _ ↦ ∃ answer, answers ⟨oci.runtime, args⟩ answer ∧
      (result.isOk = true ↔ Succeeded answer)) () := by
  refine ⟨trivial, fun answer t hanswer ↦ ?_⟩
  cases answer with
  | error e =>
    refine ⟨_, hanswer, fun h ↦ absurd h Bool.false_ne_true, ?_⟩
    rintro ⟨_, ⟨⟩, _⟩
  | ok output =>
    show (answering answers).wp (if output.success = true then _ else _) _ _
    split
    case isTrue hsuccess => exact ⟨_, hanswer, fun _ ↦ ⟨output, rfl, hsuccess⟩, fun _ ↦ rfl⟩
    case isFalse hfailed =>
      refine ⟨_, hanswer, fun h ↦ absurd h Bool.false_ne_true, ?_⟩
      rintro ⟨_, ⟨⟩, hsuccess⟩
      exact absurd hsuccess hfailed

theorem output_answers (lib : Decoders) (args : List String) :
    (answering answers).wp (output lib oci args) (fun result _ ↦ ∃ answer,
      answers ⟨oci.runtime, args⟩ answer ∧ result = printed lib answer) () := by
  refine ⟨trivial, fun answer t hanswer ↦ ?_⟩
  show (answering answers).wp (.ofExcept id (printed lib answer)) _ _
  rw [wp_ofExcept]
  refine ⟨answer, hanswer, ?_⟩
  cases printed lib answer with
  | ok text => rfl
  | error reason => rfl

theorem split_digest (h : isDigest digest = true) (name : List Char) :
    rsplitOnce "@sha256:".toList (name ++ ("@sha256:".toList ++ digest)) = some (name, digest) := by
  have hat : '@' ∉ "sha256:".toList ++ digest := by
    rw [List.mem_append, not_or]
    exact ⟨by decide, fun hmem ↦ (safeChar_parts (digest_safe h '@' hmem)).2.1 rfl⟩
  have hsplit := rsplitOnce_append hat name
  exact hsplit

theorem usable_iff (h : isDigest digest = true) :
    Usable (name ++ ("@sha256:".toList ++ digest)) ↔
      isOption (name ++ ("@sha256:".toList ++ digest)) = false ∧ isLowerCase digest = true := by
  refine and_congr_right fun _ ↦ ⟨?_, fun hlower ↦ ⟨name, digest, rfl, h, hlower⟩⟩
  rintro ⟨other, reported, htext, hdigest, hlower⟩
  have hsplit := split_digest hdigest other
  rw [← htext, split_digest h] at hsplit
  rwa [(Prod.mk.inj (Option.some.inj hsplit)).2]

theorem folded_of_lower (h : isLowerCase text = true) : foldAscii text = text := by
  simp only [isLowerCase, List.all_eq_true, beq_iff_eq] at h
  exact (List.map_congr_left h).trans (List.map_id text)

theorem reported_iff (h : isDigest digest = true) {values : List String}
    (hheld : ∃ value ∈ values, ("@sha256:".toList ++ foldAscii digest) <:+ value.toList)
    (hvalues : ∀ value ∈ values, ∃ repository reported, value.toList =
      repository ++ ("@sha256:".toList ++ reported) ∧ isDigest reported = true ∧
        isLowerCase reported = true) :
    (values.any fun value ↦ ("@sha256:".toList ++ digest).isSuffixOf value.toList) = true ↔
      isLowerCase digest = true := by
  constructor
  · intro hany
    obtain ⟨value, hvalue, hsuffix⟩ := List.any_eq_true.mp hany
    obtain ⟨front, hfront⟩ := List.isSuffixOf_iff_suffix.mp hsuffix
    obtain ⟨repository, reported, htext, hdigest, hlower⟩ := hvalues value hvalue
    have hsplit := split_digest hdigest repository
    rw [← htext, ← hfront, split_digest h] at hsplit
    rwa [(Prod.mk.inj (Option.some.inj hsplit)).2]
  · intro hlower
    rw [folded_of_lower hlower] at hheld
    obtain ⟨value, hvalue, hsuffix⟩ := hheld
    exact List.any_eq_true.mpr ⟨value, hvalue, List.isSuffixOf_iff_suffix.mpr hsuffix⟩

/-- The image is found ready exactly where its reference is usable. -/
theorem imageReady_wp {name? : Option (List Char)} (h : Holds lib oci answers digest)
    (hnamed : PinNames image.reference.toList (name?, .digest digest)) :
    (answering answers).wp (imageReady lib oci image) (fun result _ ↦
      (result.isOk = true ↔ Usable image.reference.toList)) () := by
  have hfailed (hnot : ¬ Usable image.reference.toList) : (answering answers).wp
      (failCapabilityOr lib oci imageFailure) (fun (result : Except FailureReason Unit) _ ↦
        (result.isOk = true ↔ Usable image.reference.toList)) () := by
    refine wp_mono (failCapabilityOr_ready h imageFailure) fun result _ hresult ↦ ?_
    rw [hresult]
    exact iff_of_false Bool.false_ne_true hnot
  generalize htext : image.reference.toList = text at hnamed hfailed ⊢
  cases hnamed with
  | @digest digest hdigest =>
    have hat : '@' ∉ "sha256:".toList ++ digest := by
      rw [List.mem_append, not_or]
      exact ⟨by decide, fun hmem ↦ (safeChar_parts (digest_safe hdigest '@' hmem)).2.1 rfl⟩
    have hnone (separator : List Char) :
        rsplitOnce ('@' :: separator) ("sha256:".toList ++ digest) = none :=
      rsplitOnce_eq_none hat
    have hsplit : rsplitOnce "@sha256:".toList ("sha256:".toList ++ digest) = none :=
      hnone "sha256:".toList
    unfold imageReady
    rw [htext, hsplit]
    refine iff_of_false Bool.false_ne_true ?_
    rintro ⟨-, name, reported, heq, -⟩
    exact hat (heq ▸ List.mem_append_right name List.mem_cons_self)
  | @image name digest hname hdigest =>
    have hnames : PinNames image.reference.toList (some name, .digest (foldAscii digest)) := by
      rw [htext]
      exact .image hname hdigest
    rw [usable_iff hdigest] at hfailed ⊢
    unfold imageReady
    rw [htext, split_digest hdigest]
    refine wp_outcome_seq (status_answers _) fun pulled t hpulled ↦ ?_
    obtain ⟨answer, hanswer, hstatus⟩ := hpulled
    rw [h.pull _ _ _ hnames hanswer, htext] at hstatus
    cases pulled with
    | error reason =>
      exact hfailed fun husable ↦ Bool.false_ne_true (hstatus.mpr husable.1)
    | ok _ =>
      have hoption := hstatus.mp rfl
      refine wp_outcome_seq (output_answers lib _) fun printed t hprinted ↦ ?_
      obtain ⟨answer, hanswer, rfl⟩ := hprinted
      obtain ⟨shown, values, hshown, hvalues, hheld, hlower⟩ :=
        h.inspect _ _ _ hnames (htext ▸ hoption) hanswer
      have hany := reported_iff hdigest hheld hlower
      rw [hshown]
      dsimp only
      rw [hvalues]
      dsimp only
      split
      case isTrue hfound => exact iff_of_true rfl ⟨hoption, hany.mp hfound⟩
      case isFalse hmissing =>
        exact iff_of_false Bool.false_ne_true fun husable ↦ hmissing (hany.mpr husable.2)

theorem resolve_wp {name? : Option (List Char)} (h : Holds lib oci answers digest)
    (hnamed : PinNames image.reference.toList (name?, .digest digest))
    (resources : ResourceLimits) :
    (answering answers).wp (resolve lib oci (.isolated .oci image resources)) (fun result _ ↦
      (result = .ok (some ⟨.oci, image⟩) ↔ Usable image.reference.toList)) () := by
  refine wp_seq (h.ready _) (fun capability t hready ↦ ?_) fun e t hready ↦ nomatch hready
  obtain rfl := Except.ok.inj hready
  refine wp_seq (imageReady_wp h hnamed) (fun _ t hresult ↦ ?_) fun e t hresult ↦ ?_
  · exact ⟨fun _ ↦ hresult.mp rfl, fun _ ↦ rfl⟩
  · exact iff_of_false (fun heq ↦ nomatch heq)
      fun husable ↦ Bool.false_ne_true (hresult.mpr husable)

end Oci

/-! ## Policies -/

theorem isPinned_of_new {reference : String} {image : ImageReference}
    (h : ImageReference.new reference = .ok image) :
    ImageReference.isPinned reference.toList = true ∧ image = ⟨reference⟩ := by
  unfold ImageReference.new at h
  split at h
  case isTrue hpinned => exact ⟨hpinned, (Except.ok.inj h).symm⟩
  case isFalse => cases h

theorem version_no_digest (h : ∀ c ∈ version, safeChar c = true) :
    Text.contains "sha256:".toList ("vm-version:".toList ++ version) = false := by
  rw [Bool.eq_false_iff]
  intro hcontains
  obtain ⟨tail, htail, hfront⟩ := List.any_eq_true.mp hcontains
  obtain ⟨after, rfl⟩ := List.isPrefixOf_iff_prefix.mp hfront
  obtain ⟨before, hbefore⟩ := (List.mem_tails _ _).mp htail
  have hcolon : ':' ∉ version := fun hmem ↦ (safeChar_parts (h ':' hmem)).1 rfl
  have hsplit : (before ++ "sha256".toList) ++ ':' :: after =
      "vm-version".toList ++ ':' :: version := by
    simpa using hbefore
  obtain ⟨hname, -⟩ := (List.append_cons_inj_of_notMem (by decide) hcolon).mp hsplit.symm
  exact absurd ⟨before, hname.symm⟩ (by decide : ¬ "sha256".toList <:+ "vm-version".toList)

theorem digest_of_validate {image : ImageReference} {resources : ResourceLimits}
    {scope : TargetScope} {workspace : WorkspacePolicy}
    (h : (ExecutionPolicy.isolated .oci image resources).validate scope workspace = .ok ()) :
    ∃ name? digest, PinNames image.reference.toList (name?, .digest digest) := by
  rw [ExecutionPolicy.validate, ite_error_eq_ok, ite_error_eq_ok] at h
  obtain ⟨-, -, h⟩ := h
  obtain ⟨_, -, h⟩ := bind_eq_ok.mp h
  obtain ⟨pinned, hnew, h⟩ := bind_eq_ok.mp h
  rw [ite_error_eq_ok] at h
  have hholds : image.holdsDigest = true := by simpa [Backend.needsDigest] using h.1
  obtain ⟨⟨named, hnamed⟩, -⟩ := names_of_pinned (isPinned_of_new hnew).1
  unfold ImageReference.holdsDigest at hholds
  generalize image.reference.toList = text at hnamed hholds ⊢
  cases hnamed with
  | image hname hdigest => exact ⟨_, _, .image hname hdigest⟩
  | digest hdigest => exact ⟨_, _, .digest hdigest⟩
  | version hsafe =>
    rw [version_no_digest hsafe] at hholds
    cases hholds

/-- What the validator accepts is clean, but may be read as an option; it is one spelling of what
it names, up to its capitals; and an image of a policy for this provider is resolved exactly where
its reference is usable. -/
theorem pins_usable (reference : String) :
    (∀ image, ImageReference.new reference = .ok image →
      (Clean reference.toList ∧ isOption reference.toList = false ↔
        reference.toList.head? ≠ some '-')) ∧
    (∀ other image image' named, ImageReference.new reference = .ok image →
      ImageReference.new other = .ok image' → PinNames reference.toList named →
      PinNames other.toList named →
        (image = image' ↔ capitals reference.toList = capitals other.toList)) ∧
    ∀ resources scope workspace,
      (ExecutionPolicy.isolated .oci ⟨reference⟩ resources).validate scope workspace = .ok () →
      ∃ name? digest, PinNames reference.toList (name?, .digest digest) ∧
        ∀ lib oci answers, Holds lib oci answers digest →
          (answering answers).wp (Oci.resolve lib oci (.isolated .oci ⟨reference⟩ resources))
            (fun result _ ↦ (result = .ok (some ⟨.oci, ⟨reference⟩⟩) ↔ Usable reference.toList))
            () := by
  refine ⟨fun image h ↦ ?_, fun other image image' named h h' hn hn' ↦ ?_,
    fun resources scope workspace h ↦ ?_⟩
  · have hclean := isPinned_clean (isPinned_of_new h).1
    simp [hclean, isOption]
  · rw [(isPinned_of_new h).2, (isPinned_of_new h').2, ← eq_iff_capitals hn hn',
      ImageReference.mk.injEq, String.toList_inj]
  · obtain ⟨name?, digest, hnamed⟩ := digest_of_validate h
    exact ⟨name?, digest, hnamed, fun lib oci answers hholds ↦
      Oci.resolve_wp hholds hnamed resources⟩

/-! ## A runtime -/

/-- What a ready runtime prints of itself. -/
def sampleInfo : Json :=
  .object [
    ("host", .object [
      ("security", .object [("rootless", .bool true)]),
      ("idMappings", .object [
        ("uidmap", .array [.object [("size", .number 65536)]]),
        ("gidmap", .array [.object [("size", .number 65536)]])]),
      ("cgroupVersion", .string "v2"),
      ("cgroupControllers", .array [.string "cpu", .string "memory", .string "pids"])]),
    ("store", .object [
      ("graphRoot", .string "/g"), ("runRoot", .string "/r"),
      ("graphStatus", .object [("Backing Filesystem", .string "xfs")])])]

def sampleDigest : String :=
  String.ofList (List.replicate 64 'a')

/-- The one image that the runtime holds. -/
def sampleReference : String :=
  "g/r@sha256:" ++ sampleDigest

def sampleDigests : Json :=
  .array [.string sampleReference]

/-- Decoders that are right on what the runtime prints. -/
def sampleDecoders : Decoders where
  fromUtf8 bytes :=
    if bytes.all (· < 128) then some (String.ofList (bytes.map fun byte ↦ Char.ofNat byte.toNat))
    else none
  fromUtf8Lossy bytes := String.ofList (bytes.map fun byte ↦ Char.ofNat byte.toNat)
  parseJson text :=
    if text.toList = sampleInfo.render then some sampleInfo
    else if text.toList = sampleDigests.render then some sampleDigests
    else none
  parseUuid _ := none

def printing (value : Json) : CommandAnswer :=
  .ok ⟨some 0, value.render.map fun c ↦ UInt8.ofNat c.toNat, []⟩

/-- A runtime that is ready and holds the one image. -/
def sampleAnswer (c : RuntimeCommand) : CommandAnswer :=
  match c.args with
  | ["info", _] | ["--storage-opt", _, "info", _] => printing sampleInfo
  | ["pull", _, reference] =>
    if isOption reference.toList then .ok ⟨some 125, [], []⟩ else .ok ⟨some 0, [], []⟩
  | ["image", "inspect", _, _, _] => printing sampleDigests
  | _ => .ok ⟨some 125, [], []⟩

def sampleOci : OciProcesses :=
  ⟨⟨1⟩, "podman", true, true⟩

theorem Oci.rootlessReady_wp {lib : Decoders} {oci : OciProcesses}
    {answers : RuntimeCommand → CommandAnswer → Prop} {info : Json} {roots : String × String}
    (hlinux : oci.linux = true) (hconfigured : oci.runtimeConfigurationValid = true)
    (hinfo : ∀ answer, answers ⟨oci.runtime, ["info", "--format=json"]⟩ answer →
      ∃ output, answer = .ok output ∧ output.success = true ∧
        output.stdout.length ≤ maxCapture ∧
        (lib.fromUtf8 output.stdout).bind lib.parseJson = some info)
    (hcheck : Oci.checkInfo info = .ok roots)
    (hfiles : (pointer ["store", "graphStatus", "Backing Filesystem"] info).bind asStr =
      some "xfs")
    (hprobe : ∀ size answer,
      answers ⟨oci.runtime, ["--storage-opt", size, "info", "--format=json"]⟩ answer →
        ∃ text, Oci.printed lib answer = .ok text) (mib : Nat) :
    (answering answers).wp (Oci.rootlessReadyFor lib oci mib)
      (fun result _ ↦ result = .ok .ready) () := by
  unfold Oci.rootlessReadyFor
  rw [hlinux, hconfigured]
  refine ⟨trivial, fun answer t hanswer ↦ ?_⟩
  obtain ⟨output, rfl, hsuccess, hlength, hparsed⟩ := hinfo answer hanswer
  have hread : (!output.success || decide (output.stdout.length > maxCapture)) = false := by
    simp [hsuccess, hlength]
  simp only [Program.andThen, hread, hparsed, hcheck, Bool.false_eq_true, if_false]
  refine ⟨trivial, fun answer t hanswer ↦ ?_⟩
  obtain ⟨text, htext⟩ := hprobe _ answer hanswer
  simp only [Program.andThen, htext, hfiles]
  rfl

theorem toList_sampleDigest : sampleDigest.toList = List.replicate 64 'a' :=
  String.toList_ofList

theorem toList_pin (name : String) :
    (name ++ sampleDigest).toList = name.toList ++ List.replicate 64 'a' := by
  rw [String.toList_append, toList_sampleDigest]

theorem toList_sampleReference :
    sampleReference.toList = "g/r@sha256:".toList ++ List.replicate 64 'a' :=
  toList_pin _

theorem new_of_toList {reference : String} {text : List Char} (htext : reference.toList = text)
    (h : ImageReference.isPinned text = true) :
    ImageReference.new reference = .ok ⟨reference⟩ := by
  rw [ImageReference.new, htext, if_pos h]

/-- What the checks say of the digest and of the texts that it ends. -/
theorem sample_checks :
    (∀ front ∈ ["g/r@sha256:".toList, "-q@sha256:".toList, "sha256:".toList],
      ImageReference.isPinned (front ++ List.replicate 64 'a') = true ∧
        Text.contains "sha256:".toList (front ++ List.replicate 64 'a') = true) ∧
    (ImageReference.isPinned ("g/r@sha256:".toList ++ List.replicate 64 'A') = true ∧
      rsplitOnce "@sha256:".toList ("sha256:".toList ++ List.replicate 64 'a') = none) ∧
    ((isDigest (List.replicate 64 'a') = true ∧ isLowerCase (List.replicate 64 'a') = true) ∧
      isDigest (List.replicate 64 'A') = true ∧
      foldAscii (List.replicate 64 'A') = List.replicate 64 'a') ∧
    reading ("g/r@sha256:".toList ++ List.replicate 64 'a') =
      (some "g/r".toList, .digest (List.replicate 64 'a')) ∧
    ("g/r@sha256:".toList ++ List.replicate 64 'a').flatMap Json.escape =
      "g/r@sha256:".toList ++ List.replicate 64 'a' ∧
    ∀ c ∈ '[' :: '"' :: ("g/r@sha256:".toList ++ List.replicate 64 'a' ++ ['"', ']']),
      isWhitespace c = false := by
  repeat rw [String.toList_ofList]
  decide

theorem sampleReference_new : ImageReference.new sampleReference = .ok ⟨sampleReference⟩ :=
  new_of_toList toList_sampleReference (sample_checks.1 _ (by simp)).1

theorem render_sampleDigests : sampleDigests.render =
    '[' :: '"' :: ("g/r@sha256:".toList ++ List.replicate 64 'a' ++ ['"', ']']) := by
  show '[' :: (Json.quoted sampleReference ++ [] ++ [']']) = _
  obtain ⟨-, -, -, -, hplain, -⟩ := sample_checks
  rw [Json.quoted, toList_sampleReference, hplain, List.append_nil, List.cons_append,
    List.append_assoc]
  rfl

theorem sample_parsed {value : Json} (h : value ∈ [sampleInfo, sampleDigests]) :
    sampleDecoders.parseJson (String.ofList value.render) = some value := by
  have hother : sampleDigests.render ≠ sampleInfo.render := fun heq ↦
    absurd (congrArg List.head? heq) (by decide)
  show (if (String.ofList value.render).toList = sampleInfo.render then some sampleInfo
    else if (String.ofList value.render).toList = sampleDigests.render then some sampleDigests
    else none) = _
  rw [String.toList_ofList]
  simp only [List.mem_cons, List.not_mem_nil, or_false] at h
  obtain rfl | rfl := h
  · rw [if_pos rfl]
  · rw [if_neg hother, if_pos rfl]

theorem sample_utf8 {text : List Char} (h : ∀ c ∈ text, c.toNat < 128) :
    sampleDecoders.fromUtf8 (text.map fun c ↦ UInt8.ofNat c.toNat) =
      some (String.ofList text) := by
  have hbyte : ∀ c ∈ text, (UInt8.ofNat c.toNat).toNat = c.toNat := fun c hc ↦
    UInt8.toNat_ofNat_of_lt' ((h c hc).trans (by decide))
  have hall : (text.map fun c ↦ UInt8.ofNat c.toNat).all (· < 128) = true := by
    rw [List.all_map, List.all_eq_true]
    intro c hc
    have hlt : (UInt8.ofNat c.toNat).toNat < 128 := (hbyte c hc).symm ▸ h c hc
    exact decide_eq_true hlt
  have hback : (text.map fun c ↦ UInt8.ofNat c.toNat).map (fun byte ↦ Char.ofNat byte.toNat) =
      text := by
    rw [List.map_map]
    refine (List.map_congr_left fun c hc ↦ ?_).trans (List.map_id text)
    show Char.ofNat (UInt8.ofNat c.toNat).toNat = c
    rw [hbyte c hc, Char.ofNat_toNat]
  show (if _ then _ else _) = _
  rw [if_pos hall, hback]

theorem sample_printed {value : Json} (h : value ∈ [sampleInfo, sampleDigests]) :
    ∃ output, printing value = .ok output ∧ output.success = true ∧
      output.stdout.length ≤ maxCapture ∧
      sampleDecoders.fromUtf8 output.stdout = some (String.ofList value.render) := by
  have hplain : ∀ value ∈ [sampleInfo, sampleDigests],
      value.render.length ≤ maxCapture ∧ ∀ c ∈ value.render, c.toNat < 128 := by
    simp only [List.forall_mem_cons, render_sampleDigests, sampleInfo, Json.render,
      Json.renderFields, Json.renderItems, Json.quoted]
    repeat rw [String.toList_ofList]
    decide +kernel
  refine ⟨_, rfl, rfl, ?_, sample_utf8 (hplain value h).2⟩
  simpa using (hplain value h).1

/-- What is read off the information that the runtime prints. -/
theorem sampleInfo_ready : Oci.checkInfo sampleInfo = .ok ("/g", "/r") ∧
    (pointer ["store", "graphStatus", "Backing Filesystem"] sampleInfo).bind asStr =
      some "xfs" := by
  decide +kernel

theorem sample_holds : Holds sampleDecoders sampleOci (fun c answer ↦ answer = sampleAnswer c)
    sampleDigest.toList where
  ready := by
    obtain ⟨output, hprinting, hsuccess, hlength, hutf8⟩ :=
      @sample_printed sampleInfo (by simp)
    have hprinted : Oci.printed sampleDecoders (printing sampleInfo) =
        .ok (String.ofList sampleInfo.render) := by
      rw [hprinting]
      simp [Oci.printed, hsuccess, hlength, hutf8]
    refine Oci.rootlessReady_wp rfl rfl ?_ sampleInfo_ready.1 sampleInfo_ready.2 ?_
    · rintro _ rfl
      refine ⟨output, hprinting, hsuccess, hlength, ?_⟩
      rw [hutf8, Option.bind_some]
      exact sample_parsed (by simp)
    · rintro size _ rfl
      exact ⟨_, hprinted⟩
  pull reference name answer hnamed hanswer := by
    subst hanswer
    show Succeeded (if isOption reference.toList then .ok ⟨some 125, [], []⟩
      else .ok ⟨some 0, [], []⟩) ↔ _
    cases isOption reference.toList with
    | true =>
      refine iff_of_false ?_ Bool.true_eq_false.mp
      rintro ⟨_, ⟨⟩, hsuccess⟩
      exact absurd hsuccess (by decide)
    | false => exact iff_of_true ⟨_, rfl, rfl⟩ rfl
  inspect reference name answer hnamed hoption hanswer := by
    obtain ⟨output, hprinting, hsuccess, hlength, hutf8⟩ :=
      @sample_printed sampleDigests (by simp)
    have hprinted : Oci.printed sampleDecoders (printing sampleDigests) =
        .ok (String.ofList sampleDigests.render) := by
      rw [hprinting]
      simp [Oci.printed, hsuccess, hlength, hutf8]
    obtain ⟨-, -, ⟨hdigest, -⟩, -, -, hblank⟩ := sample_checks
    rw [← render_sampleDigests] at hblank
    have htrim : trimmed (String.ofList sampleDigests.render) =
        String.ofList sampleDigests.render := by
      rw [trimmed, String.toList_ofList, trim_eq_self hblank]
    have htext : sampleReference.toList =
        "g/r".toList ++ ("@sha256:".toList ++ sampleDigest.toList) := by
      rw [toList_sampleReference, toList_sampleDigest, ← List.append_assoc]
      rfl
    subst hanswer
    refine ⟨_, [sampleReference], hprinted, ?_, ⟨sampleReference, by simp, _, htext.symm⟩, ?_⟩
    · rw [htrim, sample_parsed (by simp)]
      rfl
    · intro value hvalue
      obtain rfl := List.mem_singleton.mp hvalue
      rw [toList_sampleDigest] at htext
      exact ⟨_, _, htext, hdigest⟩

/-- A policy with limits above the floors. -/
def pinnedPolicy (reference : String) : ExecutionPolicy :=
  .isolated .oci ⟨reference⟩ ⟨100, 256, 1024⟩

theorem pinnedPolicy_valid {reference : String} {text : List Char}
    (htext : reference.toList = text) (hpinned : ImageReference.isPinned text = true)
    (hholds : Text.contains "sha256:".toList text = true) :
    (pinnedPolicy reference).validate .repository .ephemeral = .ok () := by
  have hdigest : (⟨reference⟩ : ImageReference).holdsDigest = true := by
    rw [ImageReference.holdsDigest, htext, hholds]
  refine bind_eq_ok.mpr ⟨_, rfl, bind_eq_ok.mpr ⟨_, new_of_toList htext hpinned, ?_⟩⟩
  rw [hdigest]
  rfl

theorem pins_usable_sample : Clean sampleReference.toList ∧
    (answering fun c answer ↦ answer = sampleAnswer c).wp
      (Oci.resolve sampleDecoders sampleOci (pinnedPolicy sampleReference))
      (fun result _ ↦ result = .ok (some ⟨.oci, ⟨sampleReference⟩⟩)) () := by
  obtain ⟨hclean, -, hpinned⟩ := pins_usable sampleReference
  obtain ⟨-, -, ⟨hlower, -⟩, hreading, -⟩ := sample_checks
  have hhead : sampleReference.toList.head? ≠ some '-' := by
    rw [toList_sampleReference, String.toList_ofList]
    decide
  refine ⟨((hclean _ sampleReference_new).mpr hhead).1, ?_⟩
  have hvalid : (pinnedPolicy sampleReference).validate .repository .ephemeral = .ok () := by
    exact pinnedPolicy_valid toList_sampleReference (sample_checks.1 _ (by simp)).1
      (sample_checks.1 _ (by simp)).2
  obtain ⟨name?, digest, hnamed, hresolve⟩ := hpinned _ _ _ hvalid
  have hdigest : (name?, Content.digest digest) =
      (some "g/r".toList, .digest sampleDigest.toList) := by
    refine hnamed.reading.symm.trans ?_
    rw [toList_sampleReference, toList_sampleDigest, hreading]
  obtain ⟨rfl, hcontent⟩ := Prod.mk.inj hdigest
  obtain rfl := Content.digest.inj hcontent
  refine Contract.wp_mono (hresolve _ _ _ sample_holds) fun result _ hresult ↦ hresult.mpr ?_
  have hplain : isOption sampleReference.toList = false := by
    rw [toList_sampleReference, String.toList_ofList]
    rfl
  refine ⟨hplain, "g/r".toList, List.replicate 64 'a', ?_, hlower⟩
  rw [toList_sampleReference, String.toList_ofList]
  rfl

/-- The same image, its digest in capitals. -/
def sampleCapitals : String :=
  "g/r@sha256:" ++ sampleDigest.toUpper

theorem toList_capitals : sampleDigest.toUpper.toList = List.replicate 64 'A' := by
  rw [String.toUpper, String.toList_map, toList_sampleDigest]
  rfl

theorem toList_sampleCapitals :
    sampleCapitals.toList = "g/r@sha256:".toList ++ List.replicate 64 'A' := by
  rw [sampleCapitals, String.toList_append, toList_capitals]

theorem sample_names {digest : String} (hdigest : isDigest digest.toList = true)
    (hfolded : foldAscii digest.toList = sampleDigest.toList) :
    PinNames ("g/r@sha256:" ++ digest).toList (some "g/r".toList, .digest sampleDigest.toList) := by
  have htext : ("g/r@sha256:" ++ digest).toList =
      "g/r".toList ++ ("@sha256:".toList ++ digest.toList) := by
    simp
  rw [htext, ← hfolded]
  exact .image ⟨by decide, by decide, by decide⟩ hdigest

/-- An image without a name is not resolved. -/
theorem Oci.resolve_bare {lib : Decoders} {oci : OciProcesses}
    {answers : RuntimeCommand → CommandAnswer → Prop} {digest : List Char} {reference : String}
    (h : Holds lib oci answers digest)
    (hbare : rsplitOnce "@sha256:".toList reference.toList = none) (resources : ResourceLimits) :
    (answering answers).wp (Oci.resolve lib oci (.isolated .oci ⟨reference⟩ resources))
      (fun result _ ↦ result = .error imageFailure) () := by
  refine Contract.wp_seq (h.ready _) (fun capability t hready ↦ ?_) fun e t hready ↦ nomatch hready
  obtain rfl := Except.ok.inj hready
  show Contract.wp _ (Oci.imageReady lib oci _ >>= _) _ _
  unfold Oci.imageReady
  rw [hbare]
  rfl

/-- Three accepted references: one that is an option, one that is another spelling of the image
that the runtime holds, and one that an accepted policy has and that is never resolved. -/
theorem accepted_unusable :
    (ImageReference.new ("-q@sha256:" ++ sampleDigest) = .ok ⟨"-q@sha256:" ++ sampleDigest⟩ ∧
      isOption ("-q@sha256:" ++ sampleDigest).toList = true) ∧
    (ImageReference.new sampleCapitals = .ok ⟨sampleCapitals⟩ ∧
      ImageReference.new sampleReference = .ok ⟨sampleReference⟩ ∧
      sampleCapitals ≠ sampleReference ∧
      PinNames sampleCapitals.toList (some "g/r".toList, .digest sampleDigest.toList) ∧
      PinNames sampleReference.toList (some "g/r".toList, .digest sampleDigest.toList)) ∧
    (pinnedPolicy ("sha256:" ++ sampleDigest)).validate .repository .ephemeral = .ok () ∧
    Holds sampleDecoders sampleOci (fun c answer ↦ answer = sampleAnswer c) sampleDigest.toList ∧
    (answering fun c answer ↦ answer = sampleAnswer c).wp
      (Oci.resolve sampleDecoders sampleOci (pinnedPolicy ("sha256:" ++ sampleDigest)))
      (fun result _ ↦ result = .error imageFailure) () := by
  obtain ⟨hpinned, ⟨hcapitals, hsplit⟩, ⟨⟨hdigest, -⟩, hcapitalDigest, hfolded⟩, -⟩ := sample_checks
  have hdiffer : sampleCapitals ≠ sampleReference := by
    intro h
    have hlast := congrArg (fun text : String ↦ text.toList.getLast?) h
    rw [toList_sampleCapitals, toList_sampleReference, String.toList_ofList] at hlast
    revert hlast
    decide
  have hcapitalNames :
      PinNames sampleCapitals.toList (some "g/r".toList, .digest sampleDigest.toList) := by
    refine sample_names ?_ ?_ <;> rw [toList_capitals]
    · exact hcapitalDigest
    · rw [toList_sampleDigest, hfolded]
  have hnames :
      PinNames sampleReference.toList (some "g/r".toList, .digest sampleDigest.toList) := by
    refine sample_names ?_ ?_ <;> rw [toList_sampleDigest]
    · exact hdigest
    · rfl
  have hvalid :
      (pinnedPolicy ("sha256:" ++ sampleDigest)).validate .repository .ephemeral = .ok () := by
    obtain ⟨hbare, hholds⟩ := hpinned "sha256:".toList (by simp)
    exact pinnedPolicy_valid (toList_pin _) hbare hholds
  have hbare : rsplitOnce "@sha256:".toList ("sha256:" ++ sampleDigest).toList = none := by
    rw [toList_pin, hsplit]
  refine ⟨⟨new_of_toList (toList_pin _) (hpinned _ (by simp)).1, by rw [toList_pin, String.toList_ofList]; rfl⟩,
    ⟨new_of_toList toList_sampleCapitals hcapitals, sampleReference_new, hdiffer, hcapitalNames,
      hnames⟩, hvalid, sample_holds, Oci.resolve_bare sample_holds hbare _⟩

end RunnerManager.Agent
