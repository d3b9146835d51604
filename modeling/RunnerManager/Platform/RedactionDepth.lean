import RunnerManager.Lib.Yields
import RunnerManager.Lib.Fields
import RunnerManager.Platform.Redaction

/-!
# Redaction ends, in four levels

Every slice of `redact` is at a boundary, every loop ends, and four nested activations of
`redactCore` are enough: a fragment has no structural character, and what stands around a URL has
no URL. Read `splitUrl_of_mark` and `splitWrappers_eq` first: they say what the two cuts return.
`redaction_bounded` is the result, with the layout that is kept.
-/

namespace RunnerManager.Platform.Redaction

open RunnerManager.Text

variable {text piece before after core : List Char} {p : Char → Bool} {c : Char}

/-! ## Cuts -/

theorem cut_append (before after : List Char) :
    cut (byteLen before) (before ++ after) = .ok (before, after) := by
  rw [cut, splitAt?_append]

theorem cut_takeWhile (p : Char → Bool) (text : List Char) :
    cut (byteLen (text.takeWhile p)) text = .ok (text.takeWhile p, text.dropWhile p) := by
  rw [cut, splitAt?_takeWhile]

theorem utf8Size_ascii (h : c.toNat < 128) : c.utf8Size = 1 := by
  have hval : c.val ≤ 0x7f := by
    rw [UInt32.le_iff_toNat_le]
    exact Nat.le_of_lt_succ h
  unfold Char.utf8Size
  exact if_pos hval

theorem cut_one (h : c.utf8Size = 1) (rest : List Char) :
    cut 1 (c :: rest) = .ok ([c], rest) := by
  have hcut := cut_append [c] rest
  rwa [byteLen_cons, byteLen_nil, h] at hcut

theorem byteLen_ascii (h : ∀ c ∈ text, c.toNat < 128) : byteLen text = text.length := by
  induction text with
  | nil => rfl
  | cons c rest ih =>
    rw [byteLen_cons, utf8Size_ascii (h c List.mem_cons_self),
      ih fun d hd ↦ h d (List.mem_cons_of_mem _ hd), List.length_cons, Nat.add_comm]

/-! ## Wrappers -/

/-- What `splitWrappers` returns. -/
def wrapped (piece : List Char) : Wrapped :=
  let rest := trimStartWrappers piece
  ⟨piece.take (piece.length - rest.length), trimEndWrappers rest,
    rest.rtakeWhile fun c ↦ isWrapper c || c == '\\'⟩

theorem trimStart_suffix (piece : List Char) : trimStartWrappers piece <:+ piece := by
  induction piece with
  | nil => exact List.suffix_refl _
  | cons c rest ih =>
    rw [trimStartWrappers]
    split
    · exact ih.trans (List.suffix_cons c rest)
    · exact List.suffix_refl _

theorem trimEnd_append (piece : List Char) :
    trimEndWrappers piece ++ piece.rtakeWhile (fun c ↦ isWrapper c || c == '\\') = piece :=
  List.rdropWhile_append_rtakeWhile

theorem wrapped_lead (piece : List Char) :
    (wrapped piece).lead ++ trimStartWrappers piece = piece := by
  obtain ⟨lead, hlead⟩ := trimStart_suffix piece
  have hlength := congrArg List.length hlead
  rw [List.length_append] at hlength
  have htake : (wrapped piece).lead = lead := by
    show piece.take (piece.length - (trimStartWrappers piece).length) = lead
    rw [show piece.length - (trimStartWrappers piece).length = lead.length by omega]
    conv_lhs => rw [← hlead]
    exact List.take_left' rfl
  rw [htake, hlead]

theorem wrapped_append (piece : List Char) :
    (wrapped piece).lead ++ (wrapped piece).core ++ (wrapped piece).trail = piece := by
  rw [List.append_assoc]
  show (wrapped piece).lead ++ (trimEndWrappers (trimStartWrappers piece) ++
    (trimStartWrappers piece).rtakeWhile fun c ↦ isWrapper c || c == '\\') = piece
  rw [trimEnd_append, wrapped_lead]

theorem splitWrappers_eq (piece : List Char) : splitWrappers piece = .ok (wrapped piece) := by
  have hlead := wrapped_lead piece
  have hlength : byteLen piece - byteLen (trimStartWrappers piece) =
      byteLen (wrapped piece).lead := by
    have hsum := congrArg byteLen hlead
    rw [byteLen_append] at hsum
    omega
  have hfirst : cut (byteLen (wrapped piece).lead) piece =
      .ok ((wrapped piece).lead, trimStartWrappers piece) := by
    have hcut := cut_append (wrapped piece).lead (trimStartWrappers piece)
    rwa [hlead] at hcut
  have hsecond : cut (byteLen (trimEndWrappers (trimStartWrappers piece)))
      (trimStartWrappers piece) = .ok ((wrapped piece).core, (wrapped piece).trail) := by
    have hcut := cut_append (wrapped piece).core (wrapped piece).trail
    rwa [show (wrapped piece).core ++ (wrapped piece).trail = trimStartWrappers piece from
      trimEnd_append _] at hcut
  unfold splitWrappers
  rw [hlength, hfirst]
  show (cut _ _ >>= _) = _
  rw [hsecond]
  rfl

theorem core_part (piece : List Char) : (wrapped piece).core <:+: piece :=
  ⟨_, _, wrapped_append piece⟩

/-! ## URLs -/

/-- The text of the URL that begins what follows a scheme. -/
def urlText (after : List Char) : List Char :=
  let url := after.takeWhile fun c ↦ !isUrlTerminator c
  let head := url.takeWhile fun c ↦ !isQueryMark c
  if head.any isUrlHeadTerminator then head.takeWhile fun c ↦ !isUrlHeadTerminator c else url

theorem urlText_front (after : List Char) : urlText after <+: after := by
  unfold urlText
  dsimp only
  have hurl : (after.takeWhile fun c ↦ !isUrlTerminator c) <+: after := List.takeWhile_prefix _
  split
  · refine .trans ?_ hurl
    exact .trans ( List.takeWhile_prefix _) ( List.takeWhile_prefix _)
  · exact hurl

theorem urlText_append (after : List Char) :
    urlText after ++ after.drop (urlText after).length = after :=
  List.prefix_iff_eq_append.mp (urlText_front after)

theorem urlEnd_eq (after : List Char) : urlEnd after = .ok (byteLen (urlText after)) := by
  unfold urlEnd
  rw [findBy_getD_length]
  show (cut (byteLen (after.takeWhile _)) after >>= _) = _
  rw [cut_takeWhile]
  show (cut ((findBy isQueryMark (after.takeWhile _)).getD _) (after.takeWhile _) >>= _) = _
  rw [findBy_getD_length, cut_takeWhile]
  show Except.ok ((findBy isUrlHeadTerminator _).getD _) = _
  rw [findBy_getD]
  exact congrArg Except.ok (apply_ite byteLen _ _ _).symm

/-- Where a scheme is followed by its mark, what is cut out. -/
def cutAt (before after : List Char) : Option UrlCut :=
  if (schemeRun before).isEmpty then none
  else some ⟨before.rdropWhile isSchemeByte, schemeRun before, urlText after,
    after.drop (urlText after).length⟩

theorem schemeMark_eq : schemeMark = [':', '/', '/'] := by decide

theorem mark_first (h : ¬ schemeMark <:+: before) {x y : List Char}
    (heq : before ++ schemeMark ++ after = x ++ schemeMark ++ y) : before.length ≤ x.length := by
  by_contra hlt
  rw [List.append_assoc, List.append_assoc, List.append_eq_append_iff] at heq
  obtain ⟨gap, rfl, -⟩ | ⟨gap, rfl, hgap⟩ := heq
  · simp at hlt
  · rw [schemeMark_eq] at hgap h
    match gap with
    | [] => simp at hlt
    | [a] => simp at hgap
    | [a, b] => simp at hgap
    | a :: b :: c :: rest =>
      simp only [List.cons_append, List.cons.injEq] at hgap
      obtain ⟨rfl, rfl, rfl, -⟩ := hgap
      exact h ⟨x, rest, by simp⟩

theorem schemeRun_append (before : List Char) :
    before.rdropWhile isSchemeByte ++ schemeRun before = before :=
  List.rdropWhile_append_rtakeWhile

theorem splitUrl_of_mark (h : ¬ schemeMark <:+: before) (after : List Char) :
    splitUrl (before ++ schemeMark ++ after) = .ok (cutAt before after) := by
  unfold splitUrl
  rw [findText_append fun x y ↦ mark_first h]
  show (cut (byteLen before) (before ++ schemeMark ++ after) >>= _) = _
  rw [List.append_assoc, cut_append]
  show (if (schemeRun before).isEmpty then _ else _) = _
  unfold cutAt
  split
  case isTrue => rfl
  case isFalse =>
    have hrun : byteLen before - byteLen (schemeRun before) =
        byteLen (before.rdropWhile isSchemeByte) := by
      conv_lhs => rw [← schemeRun_append before, byteLen_append]
      rw [schemeRun_append, Nat.add_sub_cancel]
    have hlead := cut_append (before.rdropWhile isSchemeByte) (schemeRun before)
    rw [schemeRun_append] at hlead
    have hurl := cut_append (urlText after) (after.drop (urlText after).length)
    rw [urlText_append] at hurl
    rw [hrun, hlead]
    show (cut (byteLen schemeMark) (schemeMark ++ after) >>= _) = _
    rw [cut_append]
    show (urlEnd after >>= _) = _
    rw [urlEnd_eq]
    show (cut (byteLen (urlText after)) after >>= _) = _
    rw [hurl]
    rfl

theorem splitUrl_of_no_mark (h : ¬ schemeMark <:+: piece) : splitUrl piece = .ok none := by
  have hnone : findText schemeMark piece = none :=
    (findText_eq_none (by decide)).mpr h
  unfold splitUrl
  rw [hnone]
  rfl

theorem exists_first_mark (h : schemeMark <:+: piece) :
    ∃ before after, piece = before ++ schemeMark ++ after ∧ ¬ schemeMark <:+: before := by
  cases hfind : findText schemeMark piece with
  | none => exact absurd h ((findText_eq_none (by decide)).mp hfind)
  | some n =>
    obtain ⟨before, after, rfl, -, hfirst⟩ := findText_eq_some hfind
    refine ⟨before, after, rfl, ?_⟩
    rintro ⟨x, y, rfl⟩
    have hlength := hfirst x (y ++ schemeMark ++ after) (by simp)
    have hmark : schemeMark.length = 3 := by decide
    simp only [List.length_append, hmark] at hlength
    omega

/-- What a cut returns is a part of the text around the first mark. -/
structure CutOf (piece : List Char) (found : UrlCut) : Prop where
  text : piece = found.lead ++ found.scheme ++ schemeMark ++ found.url ++ found.rest
  lead : ¬ schemeMark <:+: found.lead

theorem splitUrl_yields (piece : List Char) :
    Yields (splitUrl piece) fun found ↦ ∀ f, found = some f → CutOf piece f := by
  by_cases h : schemeMark <:+: piece
  · obtain ⟨before, after, rfl, hfirst⟩ := exists_first_mark h
    refine .of_eq (splitUrl_of_mark hfirst after) fun f hf ↦ ?_
    unfold cutAt at hf
    split at hf
    case isTrue => cases hf
    case isFalse =>
      obtain rfl := Option.some.inj hf
      refine ⟨?_, fun hlead ↦ hfirst (hlead.trans ( List.rdropWhile_prefix _ before).isInfix)⟩
      show _ = before.rdropWhile isSchemeByte ++ schemeRun before ++ schemeMark ++
        urlText after ++ _
      rw [schemeRun_append, List.append_assoc (before ++ schemeMark), urlText_append]
  · exact .of_eq (splitUrl_of_no_mark h) fun f hf ↦ nomatch hf

/-! ## What a part returns -/

def Plain (text : List Char) : Prop :=
  ∀ c ∈ text, isWhitespace c = false

/-- Something is put out for something, and no whitespace is added. -/
def Sound (text out : List Char) : Prop :=
  (text ≠ [] → out ≠ []) ∧ (Plain text → Plain out)

theorem plain_append : Plain (before ++ after) ↔ Plain before ∧ Plain after :=
  List.forall_mem_append

theorem plain_cons : Plain (c :: text) ↔ isWhitespace c = false ∧ Plain text :=
  List.forall_mem_cons

theorem Plain.of_part (h : Plain text) (hpiece : piece <:+: text) : Plain piece :=
  fun c hc ↦ h c (hpiece.subset hc)

theorem Sound.refl (text : List Char) : Sound text text :=
  ⟨id, id⟩

theorem plain_redaction : Plain redaction := by
  unfold Plain
  decide

theorem plain_schemeMark : Plain schemeMark := by
  unfold Plain
  decide

theorem sound_redaction (text : List Char) : Sound text redaction :=
  ⟨fun _ ↦ by decide, fun _ ↦ plain_redaction⟩

theorem Sound.wrap {out : List Char} (hcore : (wrapped piece).core ≠ [])
    (h : Sound (wrapped piece).core out) :
    Sound piece ((wrapped piece).lead ++ out ++ (wrapped piece).trail) := by
  refine ⟨fun _ hnil ↦ ?_, fun hplain ↦ ?_⟩
  · simp only [List.append_eq_nil_iff] at hnil
    exact h.1 hcore hnil.1.2
  · rw [← wrapped_append piece, plain_append, plain_append] at hplain
    rw [plain_append, plain_append]
    exact ⟨⟨hplain.1.1, h.2 hplain.1.2⟩, hplain.2⟩

/-! ## Shapes -/

theorem digestChar_ascii (h : isDigestChar c = true) : c.toNat < 128 := by
  simp only [isDigestChar, Bool.or_eq_true, Bool.and_eq_true, decide_eq_true_eq, Char.le_def,
    UInt32.le_iff_toNat_le] at h
  have hval : c.toNat = c.val.toNat := rfl
  obtain ⟨-, h⟩ | ⟨-, h⟩ := h
  all_goals
    rw [hval]
    exact lt_of_le_of_lt h (by decide)

theorem asSha256Digest_yields (value : List Char) :
    Yields (asSha256Digest value) fun digest ↦ ∀ out, digest = some out → Sound value out := by
  unfold asSha256Digest
  split
  case isFalse => exact .of_pure fun out hout ↦ nomatch hout
  case isTrue hdigest =>
    simp only [isDigest, Bool.and_eq_true, beq_iff_eq, List.all_eq_true] at hdigest
    have hascii : ∀ c ∈ value, c.toNat < 128 := fun c hc ↦ digestChar_ascii (hdigest.2 c hc)
    have hlength : value.length = 64 := (byteLen_ascii hascii).symm.trans hdigest.1
    have hfront : byteLen (value.take digestPrefixLen) = digestPrefixLen := by
      rw [byteLen_ascii fun c hc ↦ hascii c (List.mem_of_mem_take hc), List.length_take, hlength]
      rfl
    have hcut := cut_append (value.take digestPrefixLen) (value.drop digestPrefixLen)
    rw [List.take_append_drop, hfront] at hcut
    refine .bind (.of_eq hcut rfl) fun parts hparts ↦ .of_pure ?_
    subst hparts
    rintro out hout
    obtain rfl := Option.some.inj hout
    refine ⟨fun _ ↦ by simp, fun hplain ↦ ?_⟩
    rw [plain_append, plain_append]
    refine ⟨⟨?_, hplain.of_part ( List.take_prefix _ _).isInfix⟩, ?_⟩
    · unfold Plain
      decide
    · unfold Plain
      decide

theorem redactValue_yields (value : List Char) : Yields (redactValue value) (Sound value) := by
  unfold redactValue
  split
  · exact .of_pure (sound_redaction value)
  split
  · refine .of_pure ⟨fun _ ↦ by decide, fun _ ↦ ?_⟩
    unfold Plain
    decide
  refine .bind (asSha256Digest_yields value) fun digest hdigest ↦ ?_
  cases digest with
  | some out => exact .of_pure (hdigest out rfl)
  | none =>
    refine .of_pure ?_
    split
    · exact sound_redaction value
    · exact .refl value

/-! ## URLs, shown -/

theorem subset_of_splitOnP : ∀ part ∈ text.splitOnP p, part ⊆ text := by
  induction text with
  | nil => simp
  | cons c text ih =>
    rw [List.splitOnP_cons_eq_if_modifyHead]
    split
    · intro part hpart
      obtain rfl | hpart := List.mem_cons.mp hpart
      · exact List.nil_subset _
      · exact List.subset_cons_of_subset c (ih part hpart)
    · obtain ⟨first, rest, hparts⟩ := List.exists_cons_of_ne_nil (List.splitOnP_ne_nil p text)
      rw [hparts, List.modifyHead_cons]
      rw [hparts] at ih
      intro part hpart
      obtain rfl | hpart := List.mem_cons.mp hpart
      · exact List.cons_subset_cons c (ih first List.mem_cons_self)
      · exact List.subset_cons_of_subset c (ih part (List.mem_cons_of_mem _ hpart))

theorem redactSegments_yields (segments : List (List Char)) :
    Yields (redactSegments segments) fun out ↦
      (∀ segment ∈ segments, Plain segment) → ∀ segment ∈ out, Plain segment := by
  induction segments with
  | nil => exact .of_pure fun _ segment hsegment ↦ nomatch hsegment
  | cons segment segments ih =>
    have hrendered : Yields (redactSegment segment) fun out ↦ Plain segment → Plain out := by
      unfold redactSegment
      split
      · exact .of_pure fun _ c hc ↦ nomatch hc
      · exact (redactValue_yields segment).mono fun out hout ↦ hout.2
    refine .bind hrendered fun rendered hplain ↦ .bind ih fun rest hrest ↦ .of_pure ?_
    intro hall
    obtain ⟨hsegment, hsegments⟩ := List.forall_mem_cons.mp hall
    exact List.forall_mem_cons.mpr ⟨hplain hsegment, hrest hsegments⟩

theorem redactPath_yields (path : List Char) :
    Yields (redactPath path) fun out ↦ Plain path → Plain out := by
  refine .bind (redactSegments_yields _) fun segments hsegments ↦ .of_pure fun hplain c hc ↦ ?_
  obtain rfl | ⟨segment, hsegment, hc⟩ := mem_intercalate hc
  · decide
  · refine hsegments (fun part hpart d hd ↦ hplain d ?_) segment hsegment c hc
    exact subset_of_splitOnP part hpart hd

theorem queryMark_size (h : isQueryMark c = true) : c.utf8Size = 1 := by
  simp only [isQueryMark, Bool.or_eq_true, beq_iff_eq] at h
  obtain rfl | rfl := h
  · decide
  · decide

theorem shownHost_plain (h : Plain text) : Plain (shownHost text) := by
  unfold shownHost afterLast
  by_cases hat : text.contains '@' = true
  · rw [if_pos hat]
    rw [plain_append, plain_cons]
    exact ⟨plain_redaction, by decide, h.of_part (List.rtakeWhile_suffix _ _).isInfix⟩
  · rw [if_neg hat]
    exact h

/-- A URL keeps its scheme, and no slice of it is within a character. -/
theorem redactUrl_yields (scheme rest : List Char) :
    Yields (redactUrl scheme rest) fun out ↦
      out ≠ [] ∧ (Plain scheme → Plain rest → Plain out) := by
  unfold redactUrl
  rw [findBy_getD_length]
  refine .bind (.of_eq (cut_takeWhile _ rest) rfl) fun parts hparts ↦ ?_
  have happend : parts.1 ++ parts.2 = rest := by
    rw [← hparts]
    exact List.takeWhile_append_dropWhile
  obtain ⟨authority, tail⟩ := parts
  dsimp only at happend ⊢
  have hhost : Plain authority → Plain (shownHost authority) := shownHost_plain
  generalize shownHost authority = host at hhost ⊢
  have hfront (out : List Char) (hout : Plain rest → Plain out) :
      scheme ++ schemeMark ++ host ++ out ≠ [] ∧
        (Plain scheme → Plain rest → Plain (scheme ++ schemeMark ++ host ++ out)) := by
    refine ⟨by simp [schemeMark_eq], fun hscheme hrest ↦ ?_⟩
    have hauthority : Plain authority := by
      rw [← happend, plain_append] at hrest
      exact hrest.1
    rw [plain_append, plain_append, plain_append]
    exact ⟨⟨⟨hscheme, plain_schemeMark⟩, hhost hauthority⟩, hout hrest⟩
  cases hmark : findBy isQueryMark tail with
  | none =>
    refine .bind (redactPath_yields tail) fun path hpath ↦ .of_pure (hfront path fun hrest ↦ ?_)
    rw [← happend, plain_append] at hrest
    exact hpath hrest.2
  | some mark =>
    obtain ⟨path, c, query, rfl, rfl, hc, -⟩ := findBy_eq_some hmark
    refine .bind (.of_eq (cut_append path (c :: query)) rfl) fun parts hparts ↦ ?_
    subst hparts
    refine .bind (.of_eq (cut_one (queryMark_size hc) query) rfl) fun parts hparts ↦ ?_
    subst hparts
    refine .bind (redactPath_yields path) fun shown hshown ↦ .of_pure ?_
    have hout := hfront (shown ++ [c] ++ redaction) fun hrest ↦ ?_
    · simpa only [List.append_assoc] using hout
    · rw [← happend, plain_append, plain_append, plain_cons] at hrest
      rw [plain_append, plain_append]
      refine ⟨⟨hshown hrest.2.1, ?_⟩, plain_redaction⟩
      exact plain_cons.mpr ⟨hrest.2.2.1, fun d hd ↦ nomatch hd⟩

/-! ## Pairs -/

theorem splitOnce_append {separator : Char} {key raw : List Char}
    (h : splitOnce separator core = some (key, raw)) : core = key ++ separator :: raw :=
  (splitOnce_eq_some.mp h).1

theorem Sound.pair {separator : Char} {key raw out : List Char}
    (hcore : core = key ++ separator :: raw) (hvalue : (wrapped raw).core ≠ [])
    (h : Sound (wrapped raw).core out) :
    Sound core (key ++ separator :: ((wrapped raw).lead ++ out ++ (wrapped raw).trail)) := by
  refine ⟨fun _ ↦ by simp, fun hplain ↦ ?_⟩
  rw [hcore, plain_append, plain_cons] at hplain
  rw [plain_append, plain_cons]
  exact ⟨hplain.1, hplain.2.1, (Sound.wrap hvalue h).2 hplain.2.2⟩

theorem passOne_yields (core : List Char) (separator : Char) :
    Yields (passOne core separator) fun named ↦
      ∀ text carry, named = .redacted text carry → Sound core text := by
  unfold passOne
  cases hsplit : splitOnce separator core with
  | none => exact .of_pure fun text carry h ↦ nomatch h
  | some parts =>
    obtain ⟨key, raw⟩ := parts
    dsimp only
    split
    case isFalse => exact .of_pure fun text carry h ↦ nomatch h
    case isTrue =>
      refine .bind (.of_eq (splitWrappers_eq raw) rfl) fun value hvalue ↦ ?_
      subst hvalue
      split
      case isTrue => exact .of_pure fun text carry h ↦ nomatch h
      case isFalse hnonempty =>
        refine .of_pure fun text carry h ↦ ?_
        obtain ⟨rfl, -⟩ := Named.redacted.inj h
        refine Sound.pair (splitOnce_append hsplit) ?_ (sound_redaction _)
        simpa using hnonempty

theorem unlabelled_suffix (key redacted : List Char) : unlabelled key redacted <:+ redacted := by
  unfold unlabelled
  split
  case isFalse => exact List.suffix_refl _
  case isTrue =>
    cases hdrop : redacted.dropPrefix? "sha256:".toList with
    | none => exact List.suffix_refl _
    | some rest =>
      obtain ⟨label, rfl, -⟩ := List.dropPrefix?_eq_some_iff.mp hdrop
      exact List.suffix_append _ _

theorem passTwo_yields (core : List Char) (separator : Char) :
    Yields (passTwo core separator) fun out ↦ ∀ text, out = some text → Sound core text := by
  unfold passTwo
  cases hsplit : splitOnce separator core with
  | none => exact .of_pure fun text h ↦ nomatch h
  | some parts =>
    obtain ⟨key, raw⟩ := parts
    refine .bind (.of_eq (splitWrappers_eq raw) rfl) fun value hvalue ↦ ?_
    subst hvalue
    split
    case isTrue => exact .of_pure fun text h ↦ nomatch h
    case isFalse =>
      refine .bind (redactValue_yields _) fun redacted hredacted ↦ .of_pure fun text h ↦ ?_
      obtain rfl := Option.some.inj h
      refine ⟨fun _ ↦ by simp, fun hplain ↦ ?_⟩
      rw [splitOnce_append hsplit, plain_append, plain_cons, ← wrapped_append raw, plain_append,
        plain_append] at hplain
      rw [plain_append, plain_cons, plain_append, plain_append]
      have hsuffix := (unlabelled_suffix key redacted).isInfix
      have hvalue := (hredacted.2 hplain.2.2.1.2).of_part hsuffix
      exact ⟨hplain.1, hplain.2.1, ⟨hplain.2.2.1.1, hvalue⟩, hplain.2.2.2⟩

theorem redactShapes_yields (core : List Char) (named : Bool) :
    Yields (redactShapes core named) fun result ↦ Sound core result.1 := by
  refine .bind (passTwo_yields core '=') fun first hfirst ↦ ?_
  cases first with
  | some text => exact .of_pure (hfirst text rfl)
  | none =>
    refine .bind (passTwo_yields core ':') fun second hsecond ↦ ?_
    cases second with
    | some text => exact .of_pure (hsecond text rfl)
    | none => exact .bind (redactValue_yields core) fun out hout ↦ .of_pure hout

theorem redactPair_yields (core : List Char) :
    Yields (redactPair core) fun result ↦ Sound core result.1 := by
  refine .bind (passOne_yields core '=') fun first hfirst ↦ ?_
  cases first with
  | redacted text carry => exact .of_pure (hfirst text carry rfl)
  | absent | empty =>
    refine .bind (passOne_yields core ':') fun second hsecond ↦ ?_
    cases second with
    | redacted text carry => exact .of_pure (hsecond text carry rfl)
    | absent | empty => exact redactShapes_yields core _

/-! ## Cores -/

/-- There is no structural character in the text. -/
def Flat (text : List Char) : Prop :=
  text.any isStructural = false

theorem Flat.of_part (h : Flat text) (hpiece : piece <:+: text) : Flat piece :=
  List.any_eq_false.mpr fun c hc ↦ List.any_eq_false.mp h c (hpiece.subset hc)

/-- Every core of a kind is redacted soundly. -/
def Settles (good : List Char → Prop) (inner : Redactor) : Prop :=
  ∀ core closing, good core → Yields (inner core closing) fun result ↦ Sound core result.1

variable {good : List Char → Prop} {inner : Redactor}

theorem redactAround_yields (hinner : Settles good inner) (hgood : text ≠ [] → good text) :
    Yields (redactAround inner text) fun out ↦ Plain text → Plain out := by
  unfold redactAround
  split
  case isTrue => exact .of_pure fun _ c hc ↦ nomatch hc
  case isFalse hnonempty =>
    exact .bind (hinner text [] (hgood (by simpa using hnonempty))) fun result hresult ↦
      .of_pure hresult.2

theorem redactCut_yields (hinner : Settles good inner) {found : UrlCut}
    (hgood : good found.lead) : Yields (redactCut inner found) fun out ↦
      out ≠ [] ∧ (Plain (found.lead ++ found.scheme ++ schemeMark ++ found.url) → Plain out) := by
  refine .bind (redactAround_yields hinner fun _ ↦ hgood) fun lead hlead ↦ ?_
  refine .bind (redactUrl_yields found.scheme found.url) fun url hurl ↦ .of_pure ⟨?_, fun h ↦ ?_⟩
  · simp [hurl.1]
  · rw [plain_append, plain_append, plain_append] at h
    rw [plain_append]
    exact ⟨hlead h.1.1.1, hurl.2 h.1.1.2 h.2⟩

/-- The loop over the URLs ends: each one takes its mark out of the rest. -/
theorem redactRest_yields (hinner : Settles good inner)
    (hgood : ∀ part, part <:+: text → splitUrl part = .ok none → good part) {turns : Nat}
    {out rest : List Char} (hturns : rest.length < turns) (hrest : rest <:+: text) :
    Yields (redactRest inner turns out rest) fun result ↦
      (out ≠ [] → result ≠ []) ∧ (Plain out → Plain rest → Plain result) := by
  induction turns generalizing out rest with
  | zero => exact absurd hturns (Nat.not_lt_zero _)
  | succ turns ih =>
    obtain ⟨found, hsplit, hfound⟩ := splitUrl_yields rest
    refine .bind (.of_eq hsplit rfl) fun answer hanswer ↦ ?_
    subst hanswer
    cases found with
    | none =>
      refine .bind (redactAround_yields hinner fun _ ↦ hgood rest hrest hsplit)
        fun around haround ↦ .of_pure ⟨fun hout ↦ by simp [hout], fun hout hplain ↦ ?_⟩
      exact plain_append.mpr ⟨hout, haround hplain⟩
    | some found =>
      obtain ⟨htext, hlead⟩ := hfound found rfl
      have hparts : found.lead <:+: rest ∧ found.rest <:+: rest := by
        rw [htext]
        refine ⟨⟨[], found.scheme ++ schemeMark ++ found.url ++ found.rest, by simp⟩, ?_⟩
        exact ⟨found.lead ++ found.scheme ++ schemeMark ++ found.url, [], by simp⟩
      have hshorter : found.rest.length < turns := by
        rw [htext] at hturns
        simp [schemeMark_eq] at hturns
        omega
      have hgoodLead := hgood _ (hparts.1.trans hrest) (splitUrl_of_no_mark hlead)
      refine .bind (redactCut_yields hinner hgoodLead) fun shown hshown ↦ ?_
      refine (ih hshorter (hparts.2.trans hrest)).mono fun result hresult ↦ ⟨fun _ ↦ ?_, ?_⟩
      · exact hresult.1 (by simp [hshown.1])
      · intro hout hplain
        rw [htext, plain_append] at hplain
        exact hresult.2 (plain_append.mpr ⟨hout, hshown.2 hplain.1⟩) hplain.2

theorem redactFragment_yields (hinner : Settles good inner)
    (hgood : ∀ part, part <:+: piece → good part) (carry : Carry) (tagName trailing : Bool) :
    Yields (redactFragment inner piece carry tagName trailing) fun result ↦
      Sound piece result.1 := by
  refine .bind (.of_eq (splitWrappers_eq piece) rfl) fun parts hparts ↦ ?_
  subst hparts
  split
  case isTrue => exact .of_pure (.refl piece)
  case isFalse hnonempty =>
    have hcore : (wrapped piece).core ≠ [] := by simpa using hnonempty
    split
    case isTrue => exact .of_pure (.wrap hcore (sound_redaction _))
    case isFalse =>
      exact .bind (hinner _ _ (hgood _ (core_part piece))) fun result hresult ↦
        .of_pure (.wrap hcore hresult)

theorem redactPiece_yields (hinner : Settles good inner)
    (hgood : ∀ part, part <:+: piece → good part) (carry : Carry) (tagName trailing : Bool) :
    Yields (redactPiece inner piece carry tagName trailing) fun result ↦
      Sound piece result.1 := by
  unfold redactPiece
  split
  case isTrue hnil =>
    rw [List.isEmpty_iff.mp hnil]
    exact .of_pure (.refl [])
  case isFalse => exact redactFragment_yields hinner hgood carry tagName trailing

theorem structural_size (h : isStructural c = true) : c.utf8Size = 1 := by
  simp only [isStructural, structural, List.contains_eq_mem, decide_eq_true_eq] at h
  exact (by decide : ∀ c ∈ [',', ';', '{', '}', '[', ']', '<', '>', '&'], c.utf8Size = 1) c h

/-- The loop over the structural characters ends: each one is taken out of the rest. -/
theorem redactPieces_yields (hinner : Settles good inner)
    (hgood : ∀ part, part <:+: text → Flat part → good part) {closing : List Char} {turns : Nat}
    {out rest : List Char} (carry : Carry) (preceding : Option Char) (hturns : rest.length < turns)
    (hrest : rest <:+: text) :
    Yields (redactPieces inner closing turns out carry preceding rest) fun result ↦
      (out ++ rest ≠ [] → result.1 ≠ []) ∧ (Plain (out ++ rest) → Plain result.1) := by
  induction turns generalizing out carry preceding rest with
  | zero => exact absurd hturns (Nat.not_lt_zero _)
  | succ turns ih =>
    rw [redactPieces]
    cases hfind : findBy isStructural rest with
    | none =>
      have hflat : Flat rest := List.any_eq_false.mpr fun c hc ↦ by
        rw [findBy_eq_none.mp hfind c hc]
        exact Bool.false_ne_true
      refine .bind (redactPiece_yields hinner (fun part hpart ↦ hgood part (hpart.trans hrest)
        (hflat.of_part hpart)) _ _ _) fun result hresult ↦ .of_pure ⟨?_, fun hplain ↦ ?_⟩
      · intro hnonempty hnil
        obtain ⟨rfl, hresultNil⟩ := List.append_eq_nil_iff.mp hnil
        exact hresult.1 hnonempty hresultNil
      · rw [plain_append] at hplain
        exact plain_append.mpr ⟨hplain.1, hresult.2 hplain.2⟩
    | some index =>
      obtain ⟨part, c, after, rfl, rfl, hc, hpart⟩ := findBy_eq_some hfind
      have hflat : Flat part := List.any_eq_false.mpr fun d hd ↦ by
        rw [hpart d hd]
        exact Bool.false_ne_true
      have hwithin : part <:+: text :=
        (List.prefix_append part (c :: after)).isInfix.trans hrest
      refine .bind (.of_eq (cut_append part (c :: after)) rfl) fun parts hparts ↦ ?_
      subst hparts
      refine .bind (.of_pure (P := fun d ↦ d = c) rfl) fun separator hseparator ↦ ?_
      subst hseparator
      refine .bind (redactPiece_yields hinner (fun inside hinside ↦ hgood inside
        (hinside.trans hwithin) (hflat.of_part hinside)) _ _ _) fun shown hshown ↦ ?_
      refine .bind (.of_eq (cut_one (structural_size hc) after) rfl) fun parts hparts ↦ ?_
      subst hparts
      have hafter : after.length < turns := by
        rw [List.length_append, List.length_cons] at hturns
        omega
      refine (ih shown.2 (some separator) hafter ?_).mono fun result hresult ↦ ⟨?_, ?_⟩
      · refine List.IsInfix.trans ?_ hrest
        exact ⟨part ++ [separator], [], by simp⟩
      · exact fun _ ↦ hresult.1 (by simp)
      · intro hplain
        rw [plain_append, plain_append, plain_cons] at hplain
        refine hresult.2 ?_
        rw [plain_append, plain_append, plain_append]
        refine ⟨⟨⟨hplain.1, hshown.2 hplain.2.1⟩, ?_⟩, hplain.2.2.2⟩
        exact plain_cons.mpr ⟨hplain.2.2.1, fun d hd ↦ nomatch hd⟩

/-- One activation, where the ones within it settle what they are given: what stands around its
URLs, or its fragments. -/
theorem redactCore_yields {levels : Nat} {closing : List Char}
    (hinner : Settles good (redactCore levels))
    (hurl : splitUrl core ≠ .ok none →
      ∀ part, part <:+: core → splitUrl part = .ok none → good part)
    (hflat : splitUrl core = .ok none → ¬ Flat core →
      ∀ part, part <:+: core → Flat part → good part) :
    Yields (redactCore (levels + 1) core closing) fun result ↦ Sound core result.1 := by
  obtain ⟨found, hsplit, hfound⟩ := splitUrl_yields core
  refine .bind (.of_eq hsplit rfl) fun answer hanswer ↦ ?_
  subst hanswer
  cases found with
  | some found =>
    obtain ⟨htext, hlead⟩ := hfound found rfl
    have hgood := hurl fun hnone ↦ nomatch hsplit.symm.trans hnone
    have hparts : found.lead <:+: core ∧ found.rest <:+: core := by
      rw [htext]
      refine ⟨⟨[], found.scheme ++ schemeMark ++ found.url ++ found.rest, by simp⟩, ?_⟩
      exact ⟨found.lead ++ found.scheme ++ schemeMark ++ found.url, [], by simp⟩
    refine .bind (redactCut_yields hinner (hgood _ hparts.1 (splitUrl_of_no_mark hlead)))
      fun shown hshown ↦ ?_
    refine .bind (redactRest_yields hinner hgood (Nat.lt_succ_self _) hparts.2)
      fun out hout ↦ .of_pure ⟨fun _ ↦ hout.1 hshown.1, fun hplain ↦ ?_⟩
    rw [htext, plain_append] at hplain
    exact hout.2 (hshown.2 hplain.1) hplain.2
  | none =>
    show Yields (if _ then _ else if _ then _ else _) _
    split
    · refine .of_pure ⟨fun _ ↦ by decide, fun _ ↦ ?_⟩
      unfold Plain
      decide
    split
    case isTrue hstructural =>
      have hgood := hflat hsplit (by simp [Flat, hstructural])
      exact (redactPieces_yields hinner hgood .none none (Nat.lt_succ_self _)
        (List.infix_refl core)).mono fun result hresult ↦ hresult
    case isFalse => exact redactPair_yields core

theorem settles_pair (levels : Nat) :
    Settles (fun core ↦ Flat core ∧ splitUrl core = .ok none) (redactCore (levels + 1)) := by
  intro core closing ⟨hflat, hnone⟩
  have hinner : Settles (fun _ ↦ False) (redactCore levels) := fun _ _ h ↦ h.elim
  refine redactCore_yields hinner ?_ ?_
  · exact fun hurl ↦ absurd hnone hurl
  · exact fun _ hstructural ↦ absurd hflat hstructural

theorem settles_flat (levels : Nat) : Settles Flat (redactCore (levels + 2)) := by
  intro core closing hflat
  refine redactCore_yields (settles_pair levels) ?_ ?_
  · exact fun _ part hpart hnone ↦ ⟨hflat.of_part hpart, hnone⟩
  · exact fun _ hstructural ↦ absurd hflat hstructural

theorem settles_around (levels : Nat) :
    Settles (fun core ↦ splitUrl core = .ok none) (redactCore (levels + 3)) := by
  intro core closing hnone
  refine redactCore_yields (settles_flat levels) ?_ ?_
  · exact fun hurl ↦ absurd hnone hurl
  · exact fun _ _ part _ hflat ↦ hflat

theorem settles_core (levels : Nat) : Settles (fun _ ↦ True) (redactCore (levels + 4)) := by
  intro core closing _
  have hinner : Settles (fun part ↦ Flat part ∨ splitUrl part = .ok none)
      (redactCore (levels + 3)) := by
    rintro part closing (hflat | hnone)
    · exact settles_flat (levels + 1) part closing hflat
    · exact settles_around levels part closing hnone
  refine redactCore_yields hinner ?_ ?_
  · exact fun _ part _ hnone ↦ .inr hnone
  · exact fun _ _ part _ hflat ↦ .inl hflat

/-! ## More levels change nothing -/

/-- What the first redactor returns, the second returns. -/
def Within (inner inner' : Redactor) : Prop :=
  ∀ core closing, Refines (inner core closing) (inner' core closing)

variable {inner' : Redactor}

theorem redactAround_refines (h : Within inner inner') (text : List Char) :
    Refines (redactAround inner text) (redactAround inner' text) := by
  unfold redactAround
  split
  · exact .refl _
  · exact .bind (h text []) fun _ ↦ .refl _

theorem redactCut_refines (h : Within inner inner') (found : UrlCut) :
    Refines (redactCut inner found) (redactCut inner' found) :=
  .bind (redactAround_refines h found.lead) fun _ ↦ .refl _

theorem redactRest_refines (h : Within inner inner') (turns : Nat) (out rest : List Char) :
    Refines (redactRest inner turns out rest) (redactRest inner' turns out rest) := by
  induction turns generalizing out rest with
  | zero => exact .refl _
  | succ turns ih =>
    refine .bind (.refl (splitUrl rest)) fun found ↦ ?_
    cases found with
    | none => exact .bind (redactAround_refines h rest) fun _ ↦ .refl _
    | some found => exact .bind (redactCut_refines h found) fun shown ↦ ih _ _

theorem redactPiece_refines (h : Within inner inner') (piece : List Char) (carry : Carry)
    (tagName trailing : Bool) : Refines (redactPiece inner piece carry tagName trailing)
      (redactPiece inner' piece carry tagName trailing) := by
  unfold redactPiece
  split
  · exact .refl _
  refine .bind (.refl (splitWrappers piece)) fun parts ↦ ?_
  split
  · exact .refl _
  split
  · exact .refl _
  · exact .bind (h parts.core parts.trail) fun _ ↦ .refl _

theorem redactPieces_refines (h : Within inner inner') (closing : List Char) (turns : Nat)
    (out : List Char) (carry : Carry) (preceding : Option Char) (rest : List Char) :
    Refines (redactPieces inner closing turns out carry preceding rest)
      (redactPieces inner' closing turns out carry preceding rest) := by
  induction turns generalizing out carry preceding rest with
  | zero => exact .refl _
  | succ turns ih =>
    rw [redactPieces, redactPieces]
    cases findBy isStructural rest with
    | none => exact .bind (redactPiece_refines h _ _ _ _) fun _ ↦ .refl _
    | some index =>
      refine .bind (.refl (cut index rest)) fun parts ↦ ?_
      refine .bind (.refl (firstByte parts.2)) fun separator ↦ ?_
      refine .bind (redactPiece_refines h _ _ _ _) fun shown ↦ ?_
      exact .bind (.refl (cut 1 parts.2)) fun _ ↦ ih _ _ _ _

theorem redactCore_refines (levels : Nat) :
    Within (redactCore levels) (redactCore (levels + 1)) := by
  induction levels with
  | zero => exact fun core closing ↦ .of_error _
  | succ levels ih =>
    intro core closing
    refine .bind (.refl (splitUrl core)) fun found ↦ ?_
    cases found with
    | some found =>
      refine .bind (redactCut_refines ih found) fun shown ↦ ?_
      exact .bind (redactRest_refines ih _ _ _) fun _ ↦ .refl _
    | none =>
      show Refines (if _ then _ else if _ then _ else _) (if _ then _ else if _ then _ else _)
      split
      · exact .refl _
      split
      · exact redactPieces_refines ih _ _ _ _ _ _
      · exact .refl _

theorem redactCore_levels (levels : Nat) (core closing : List Char) :
    redactCore (levels + 4) core closing = redactCore 4 core closing := by
  induction levels with
  | zero => rw [Nat.zero_add]
  | succ levels ih =>
    rw [← ih, Nat.add_right_comm]
    exact (redactCore_refines (levels + 4) core closing).eq_of_yields
      (settles_core levels core closing trivial)

/-! ## Words -/

theorem redactWord_levels (levels : Nat) (word : List Char) :
    redactWord (levels + 4) word = redactWord 4 word := by
  unfold redactWord
  simp only [redactCore_levels]

theorem redactWord_yields (word : List Char) :
    Yields (redactWord 4 word) fun result ↦ Sound word result.1 := by
  refine .bind (.of_eq (splitWrappers_eq word) rfl) fun parts hparts ↦ ?_
  subst hparts
  split
  case isTrue => exact .of_pure (.refl word)
  case isFalse hnonempty =>
    have hcore : (wrapped word).core ≠ [] := by simpa using hnonempty
    dsimp only
    split
    · exact .of_pure (.refl word)
    split
    · exact .of_pure (.refl word)
    · exact .bind (settles_core 0 _ _ trivial) fun result hresult ↦ .of_pure (.wrap hcore hresult)

/-- How a word may be rendered: not at all where it is empty, and else as one word, its own
rendering or the mark of a redaction. -/
def Rendered (word out : List Char) : Prop :=
  if word = [] then out = []
  else out ≠ [] ∧ (out = redaction ∨ ∃ followOn, redactWord 4 word = .ok (out, followOn))

/-- The layout of a text is kept: its whitespace, and one rendered word for each of its words. -/
structure Laid (text out : List Char) : Prop where
  blanks : out.filter isWhitespace = text.filter isWhitespace
  words : List.Forall₂ Rendered (text.splitOnP isWhitespace) (out.splitOnP isWhitespace)

theorem splitInclusive_word {word : List Char} (hnil : word ≠ [])
    (hword : ∀ c ∈ word, p c = false) : splitInclusiveBy p word = [word] := by
  induction word with
  | nil => exact absurd rfl hnil
  | cons c word ih =>
    obtain ⟨hc, hword⟩ := List.forall_mem_cons.mp hword
    rw [splitInclusiveBy, if_neg (by simp [hc])]
    cases word with
    | nil => rfl
    | cons d word => rw [ih (List.cons_ne_nil d word) hword]

theorem splitInclusive_append {word rest : List Char} (hword : ∀ c ∈ word, p c = false)
    (hc : p c = true) :
    splitInclusiveBy p (word ++ c :: rest) = (word ++ [c]) :: splitInclusiveBy p rest := by
  induction word with
  | nil =>
    rw [List.nil_append, splitInclusiveBy, if_pos hc]
    rfl
  | cons d word ih =>
    obtain ⟨hd, hword⟩ := List.forall_mem_cons.mp hword
    rw [List.cons_append, splitInclusiveBy, if_neg (by simp [hd]), ih hword]
    rfl

theorem word_induction {P : List Char → Prop} (empty : P [])
    (last : ∀ word, word ≠ [] → Plain word → P word)
    (word : ∀ word c rest, Plain word → isWhitespace c = true → P rest → P (word ++ c :: rest))
    (text : List Char) : P text := by
  induction hlength : text.length using Nat.strong_induction_on generalizing text with
  | _ n ih =>
    cases hfind : findBy isWhitespace text with
    | none =>
      by_cases hnil : text = []
      · rw [hnil]
        exact empty
      · exact last text hnil (findBy_eq_none.mp hfind)
    | some m =>
      obtain ⟨before, c, after, rfl, -, hc, hbefore⟩ := findBy_eq_some hfind
      refine word before c after hbefore hc (ih after.length ?_ after rfl)
      rw [← hlength, List.length_append, List.length_cons]
      omega

theorem redactChunk_yields {word blank : List Char} (hplain : Plain word)
    (hblank : splitTrailingWhitespace (word ++ blank) = .ok (word, blank)) (out : List Char)
    (pending : Nat) :
    Yields (redactChunk 4 (out, pending) (word ++ blank)) fun result ↦ ∃ rendered,
      result.1 = out ++ rendered ++ blank ∧ Plain rendered ∧ Rendered word rendered := by
  refine .bind (.of_eq hblank rfl) fun parts hparts ↦ ?_
  subst hparts
  dsimp only
  split
  case isTrue hnil =>
    have hword : word = [] := List.isEmpty_iff.mp hnil
    refine .of_pure ⟨[], by simp, fun c hc ↦ (nomatch hc), ?_⟩
    rw [Rendered, if_pos hword]
  case isFalse hnonempty =>
    have hword : word ≠ [] := by simpa using hnonempty
    split
    case isTrue =>
      refine .of_pure ⟨redaction, rfl, plain_redaction, ?_⟩
      rw [Rendered, if_neg hword]
      exact ⟨by decide, .inl rfl⟩
    case isFalse =>
      obtain ⟨result, hresult, hsound⟩ := redactWord_yields word
      refine .bind (.of_eq hresult rfl) fun value hvalue ↦ .of_pure ?_
      subst hvalue
      refine ⟨result.1, rfl, hsound.2 hplain, ?_⟩
      rw [Rendered, if_neg hword]
      exact ⟨hsound.1 hword, .inr ⟨result.2, hresult⟩⟩

theorem splitTrailing_word {word : List Char} (hplain : Plain word) :
    splitTrailingWhitespace word = .ok (word, []) := by
  unfold splitTrailingWhitespace
  cases hlast : word.getLast? with
  | none => rfl
  | some last =>
    have hblank := hplain last (List.mem_of_getLast? hlast)
    simp only [hblank]
    rfl

theorem splitTrailing_blank {word : List Char} (hc : isWhitespace c = true) :
    splitTrailingWhitespace (word ++ [c]) = .ok (word, [c]) := by
  unfold splitTrailingWhitespace
  have hoffset : byteLen (word ++ [c]) - c.utf8Size = byteLen word := by
    rw [byteLen_append, byteLen_cons, byteLen_nil]
    omega
  simp only [List.getLast?_concat, hc, if_true, hoffset]
  exact cut_append word [c]

theorem Plain.blanks (h : Plain text) : text.filter isWhitespace = [] :=
  List.filter_eq_nil_iff.mpr fun c hc ↦ by simp [h c hc]

theorem Laid.empty : Laid [] [] where
  blanks := rfl
  words := by
    rw [List.splitOnP_nil]
    exact .cons (by rw [Rendered, if_pos rfl]) .nil

theorem Laid.last {word out : List Char} (hword : Plain word) (hout : Plain out)
    (h : Rendered word out) : Laid word out where
  blanks := by
    rw [hout.blanks, hword.blanks]
  words := by
    rw [List.splitOnP_eq_singleton hword, List.splitOnP_eq_singleton hout]
    exact .cons h .nil

theorem Laid.word {word rendered rest out : List Char} (hword : Plain word)
    (hrendered : Plain rendered) (h : Rendered word rendered) (hc : isWhitespace c = true)
    (hrest : Laid rest out) : Laid (word ++ c :: rest) (rendered ++ c :: out) where
  blanks := by
    rw [List.filter_append, List.filter_append, List.filter_cons_of_pos hc,
      List.filter_cons_of_pos hc, hrest.blanks, hrendered.blanks, hword.blanks]
  words := by
    rw [List.splitOnP_append_cons_of_forall_mem hword c hc,
      List.splitOnP_append_cons_of_forall_mem hrendered c hc]
    exact .cons h hrest.words

theorem redactChunks_yields (text out : List Char) (pending : Nat) :
    Yields ((splitInclusiveBy isWhitespace text).foldlM (redactChunk 4) (out, pending))
      fun result ↦ ∃ tail, result.1 = out ++ tail ∧ Laid text tail := by
  induction text using word_induction generalizing out pending with
  | empty => exact .of_pure ⟨[], by simp, .empty⟩
  | last word hnil hword =>
    rw [splitInclusive_word hnil hword, List.foldlM_cons]
    have hchunk := @redactChunk_yields word [] hword
      (by simpa using splitTrailing_word hword) out pending
    rw [List.append_nil] at hchunk
    refine .bind hchunk fun result hresult ↦ .of_pure ?_
    obtain ⟨rendered, hout, hplain, hrendered⟩ := hresult
    exact ⟨rendered, by simpa using hout, .last hword hplain hrendered⟩
  | word word c rest hword hc ih =>
    rw [splitInclusive_append hword hc, List.foldlM_cons]
    refine .bind (redactChunk_yields hword (splitTrailing_blank hc) out pending)
      fun result hresult ↦ ?_
    obtain ⟨rendered, hout, hplain, hrendered⟩ := hresult
    refine (ih result.1 result.2).mono fun final hfinal ↦ ?_
    obtain ⟨tail, htail, hlaid⟩ := hfinal
    refine ⟨rendered ++ c :: tail, ?_, .word hword hplain hrendered hc hlaid⟩
    rw [htail, hout]
    simp

/-- No text is redacted with a fault where four activations may be nested, more than four are
never nested, and the layout is kept. -/
theorem redaction_bounded (text : List Char) :
    ∃ out, redact text = .ok out ∧ Laid text out ∧
      ∀ levels, redactWithin (levels + 4) text = .ok out := by
  obtain ⟨result, hresult, tail, htail, hlaid⟩ := redactChunks_yields text [] 0
  have hfour : redact text = .ok result.1 := by
    unfold redact redactWithin
    rw [hresult]
    rfl
  refine ⟨result.1, hfour, ?_, fun levels ↦ ?_⟩
  · rw [htail]
    exact hlaid
  · have hchunk : redactChunk (levels + 4) = redactChunk 4 := by
      funext state chunk
      unfold redactChunk
      simp only [redactWord_levels]
    rw [← hfour]
    unfold redact redactWithin
    rw [hchunk]

end RunnerManager.Platform.Redaction
