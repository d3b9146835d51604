import RunnerManager.Platform.RedactionDepth

/-!
# What a URL shows

A URI stands in a text with other text around it, and two runs of `redact` see it with other
userinfo, query and fragment. `same_of_contained` says when both put out the same: where the scan
for URLs gets to the URI, and nothing ends the URI ahead of time. `Twin` is what the scan needs of
the two texts after the scheme. `comma_in_userinfo` is a legal URI that is cut in two.
-/

namespace RunnerManager.Platform.Redaction

open RunnerManager.Text

/-! ## URIs -/

/-- The parts of a URI with an authority. -/
structure Uri where
  scheme : List Char
  userinfo : Option (List Char)
  host : List Char
  path : List Char
  query : Option (List Char)
  fragment : Option (List Char)
deriving DecidableEq

/-- A letter, a digit or one of the marks. -/
def isLegal (marks : List Char) (c : Char) : Bool :=
  isAsciiAlphanumeric c || marks.contains c

/-- Unreserved marks, sub-delimiters, the colon and the percent sign of an encoded byte. -/
def userinfoMarks : List Char :=
  ['-', '.', '_', '~', '!', '$', '&', '\'', '(', ')', '*', '+', ',', ';', '=', ':', '%']

/-- What a host and its port are made of, an address in brackets included. -/
def hostMarks : List Char :=
  userinfoMarks ++ ['[', ']']

def pathMarks : List Char :=
  userinfoMarks ++ ['@', '/']

def queryMarks : List Char :=
  pathMarks ++ ['?']

namespace Uri

def front (u : Uri) : List Char :=
  u.userinfo.elim [] (· ++ ['@']) ++ (u.host ++ u.path)

/-- The query and the fragment, with their marks. -/
def marked (u : Uri) : List Char :=
  u.query.elim [] ('?' :: ·) ++ u.fragment.elim [] ('#' :: ·)

/-- What follows the scheme and its mark. -/
def rest (u : Uri) : List Char :=
  u.front ++ u.marked

def text (u : Uri) : List Char :=
  u.scheme ++ (schemeMark ++ u.rest)

/-- Every part is drawn from its own characters. -/
structure Legal (u : Uri) : Prop where
  scheme : u.scheme.head?.any isAsciiAlphabetic = true ∧ ∀ c ∈ u.scheme, isSchemeByte c = true
  userinfo : ∀ userinfo ∈ u.userinfo, ∀ c ∈ userinfo, isLegal userinfoMarks c = true
  host : ∀ c ∈ u.host, isLegal hostMarks c = true
  path : u.path.head?.all (· == '/') = true ∧ ∀ c ∈ u.path, isLegal pathMarks c = true
  query : ∀ query ∈ u.query, ∀ c ∈ query, isLegal queryMarks c = true
  fragment : ∀ fragment ∈ u.fragment, ∀ c ∈ fragment, isLegal queryMarks c = true

/-- The same but for what the userinfo, the query and the fragment consist of. -/
structure Alike (u v : Uri) : Prop where
  scheme : u.scheme = v.scheme
  userinfo : u.userinfo.isSome = v.userinfo.isSome
  host : u.host = v.host
  path : u.path = v.path
  query : u.query.isSome = v.query.isSome
  fragment : u.fragment.isSome = v.fragment.isSome

/-- Nothing ends the URI ahead of its userinfo's end, or of its own where it has a query or a
fragment. -/
structure Whole (u : Uri) : Prop where
  userinfo : ∀ userinfo ∈ u.userinfo, userinfo.any isUrlHeadTerminator = false
  marked : u.marked ≠ [] → urlText u.rest = u.rest

/-- The character is trimmed off the end of a word. -/
def isTrimmed (c : Char) : Bool :=
  isWrapper c || c == '\\'

/-- Where the URI has a query or a fragment, its end is not trimmed off the word. -/
def Closed (u : Uri) (far : List Char) : Prop :=
  u.marked ≠ [] → far.any (fun c ↦ !isTrimmed c) = true ∨
    ∀ c ∈ u.text.getLast?, isTrimmed c = false

end Uri

/-- The scan for URLs gets through the text: every URL in it has a scheme and ends within it, or
the last one has a query, which goes on. -/
inductive Scanned : List Char → Prop
  | plain {text : List Char} (h : ¬ schemeMark <:+: text) : Scanned text
  | url {before after : List Char} (h : ¬ schemeMark <:+: before) (hscheme : schemeRun before ≠ [])
      (hends : (urlText after).length < after.length)
      (hrest : Scanned (after.drop (urlText after).length)) :
      Scanned (before ++ schemeMark ++ after)
  | query {before after : List Char} (h : ¬ schemeMark <:+: before)
      (hscheme : schemeRun before ≠ []) (hopen : urlText after = after)
      (hmark : after.any isQueryMark = true) : Scanned (before ++ schemeMark ++ after)

/-- The end of a text, back to its last whitespace. -/
def near (before : List Char) : List Char :=
  before.rtakeWhile fun c ↦ !isWhitespace c

/-- The beginning of a text, up to its first whitespace. -/
def far (after : List Char) : List Char :=
  after.takeWhile fun c ↦ !isWhitespace c

/-- The scan of the URI's word gets to the URI, and nothing ends the URI ahead of time. -/
structure Contained (before : List Char) (u : Uri) (after : List Char) : Prop where
  scanned : Scanned (trimStartWrappers (near before))
  whole : u.Whole
  closed : u.Closed (far after)

variable {text before after front tail core : List Char} {p : Char → Bool} {c mark : Char}

/-! ## Characters -/

/-- What letters and digits are not. -/
def isOrdinary (c : Char) : Bool :=
  !isWhitespace c && !isUrlHeadTerminator c && !isQueryMark c && !Uri.isTrimmed c && c != '/' &&
    c != ':'

theorem alphanumeric_ordinary (h : isAsciiAlphanumeric c = true) : isOrdinary c = true :=
  ascii_induction (P := fun c ↦ isAsciiAlphanumeric c = true → isOrdinary c = true)
    (by decide +kernel) (alphanumeric_ascii h) h

theorem legal_cases {marks : List Char} (h : isLegal marks c = true)
    (hordinary : isOrdinary c = true → p c = true) (hmarks : ∀ c ∈ marks, p c = true) :
    p c = true := by
  simp only [isLegal, Bool.or_eq_true, List.contains_eq_mem, decide_eq_true_eq] at h
  obtain h | h := h
  · exact hordinary (alphanumeric_ordinary h)
  · exact hmarks c h

theorem ordinary_parts (h : isOrdinary c = true) :
    isWhitespace c = false ∧ isUrlHeadTerminator c = false ∧ isQueryMark c = false ∧
      Uri.isTrimmed c = false ∧ c ≠ '/' ∧ c ≠ ':' := by
  simpa [isOrdinary, and_assoc] using h

theorem legal_visible {marks : List Char} (hmarks : ∀ c ∈ marks, isWhitespace c = false)
    (h : ∀ c ∈ text, isLegal marks c = true) : Plain text := by
  intro c hc
  have hvisible := legal_cases (p := fun c ↦ !isWhitespace c) (h c hc)
    (fun hordinary ↦ by simp [(ordinary_parts hordinary).1]) (fun d hd ↦ by simp [hmarks d hd])
  simpa using hvisible

theorem legal_authority {marks : List Char}
    (hmarks : ∀ c ∈ marks, isQueryMark c = false ∧ c ≠ '/')
    (h : ∀ c ∈ text, isLegal marks c = true) : ∀ c ∈ text, isQueryMark c = false ∧ c ≠ '/' := by
  intro c hc
  have hvisible := legal_cases (p := fun c ↦ !isQueryMark c && c != '/') (h c hc)
    (fun hordinary ↦ by simp [(ordinary_parts hordinary).2.2.1, (ordinary_parts hordinary).2.2.2.2])
    (fun d hd ↦ by simp [(hmarks d hd).1, (hmarks d hd).2])
  simpa using hvisible

/-! ## Texts after a scheme -/

theorem takeWhile_append_all (h : ∀ c ∈ front, p c = true) :
    (front ++ tail).takeWhile p = front ++ tail.takeWhile p :=
  List.takeWhile_append_of_pos h

theorem takeWhile_stop (hmark : p mark = false) :
    (front ++ mark :: tail).takeWhile p = front.takeWhile p := by
  induction front with
  | nil => simp [hmark]
  | cons c front ih =>
    rw [List.cons_append, List.takeWhile_cons, List.takeWhile_cons, ih]

theorem dropWhile_stop (hmark : p mark = false) :
    (front ++ mark :: tail).dropWhile p = front.dropWhile p ++ mark :: tail := by
  induction front with
  | nil => simp [hmark]
  | cons c front ih =>
    rw [List.cons_append, List.dropWhile_cons, List.dropWhile_cons, ih]
    split <;> rfl

theorem rtakeWhile_stop (hmark : p mark = false) :
    (front ++ mark :: tail).rtakeWhile p = tail.rtakeWhile p := by
  have hreverse : (front ++ mark :: tail).reverse = tail.reverse ++ mark :: front.reverse := by
    simp
  rw [List.rtakeWhile, List.rtakeWhile, hreverse, takeWhile_stop hmark]

theorem urlText_open (h : ∀ c ∈ front, isUrlHeadTerminator c = false ∧ isQueryMark c = false)
    (tail : List Char) : urlText (front ++ tail) = front ++ urlText tail := by
  have hurl : ∀ c ∈ front, (!isUrlTerminator c) = true := by
    intro c hc
    have hhead := (h c hc).1
    simp only [isUrlHeadTerminator, Bool.or_eq_false_iff] at hhead
    simp [hhead.1.1]
  have hquery : ∀ c ∈ front, (!isQueryMark c) = true := fun c hc ↦ by simp [(h c hc).2]
  have hhead : ∀ c ∈ front, (!isUrlHeadTerminator c) = true := fun c hc ↦ by simp [(h c hc).1]
  have hany : front.any isUrlHeadTerminator = false :=
    List.any_eq_false.mpr fun c hc ↦ by simp [(h c hc).1]
  unfold urlText
  dsimp only
  rw [takeWhile_append_all hurl, takeWhile_append_all hquery, List.any_append, hany,
    Bool.false_or, takeWhile_append_all hhead]
  split <;> rfl

theorem whole_parts (h : urlText text = text) : (∀ c ∈ text, isUrlTerminator c = false) ∧
    (text.takeWhile fun c ↦ !isQueryMark c).any isUrlHeadTerminator = false := by
  have hfirst : urlText text <+: text.takeWhile fun c ↦ !isUrlTerminator c := by
    unfold urlText
    dsimp only
    split
    · exact .trans ( List.takeWhile_prefix _) ( List.takeWhile_prefix _)
    · exact List.prefix_refl _
  have hall : ∀ c ∈ text, isUrlTerminator c = false := by
    rw [h] at hfirst
    have hself := hfirst.eq_of_length_le ( List.takeWhile_prefix _).length_le
    intro c hc
    simpa using List.takeWhile_eq_self_iff.mp hself.symm c hc
  refine ⟨hall, Bool.eq_false_iff.mpr fun hany ↦ ?_⟩
  have hself : (text.takeWhile fun c ↦ !isUrlTerminator c) = text :=
    List.takeWhile_eq_self_iff.mpr fun c hc ↦ by simp [hall c hc]
  unfold urlText at h
  dsimp only at h
  rw [hself, if_pos hany] at h
  -- The head would be the whole text, and so would be what stands ahead of its terminator.
  obtain ⟨c, hc, hend⟩ := List.any_eq_true.mp hany
  have hin : c ∈ text := ( List.takeWhile_prefix _).subset hc
  rw [← h] at hin
  have hnot := List.mem_takeWhile_imp hin
  simp [hend] at hnot

theorem urlText_query {query : List Char}
    (hwhole : urlText (front ++ mark :: query) = front ++ mark :: query)
    (hmark : isQueryMark mark = true) (tail : List Char) :
    urlText (front ++ mark :: query ++ tail) =
      front ++ mark :: query ++ tail.takeWhile fun c ↦ !isUrlTerminator c := by
  obtain ⟨hall, hhead⟩ := whole_parts hwhole
  have hstop : (!isQueryMark mark) = false := by rw [hmark]; rfl
  rw [takeWhile_stop hstop] at hhead
  unfold urlText
  dsimp only
  rw [takeWhile_append_all fun c hc ↦ by rw [hall c hc]; rfl, List.append_assoc,
    List.cons_append, takeWhile_stop hstop, hhead]
  simp

theorem takeWhile_append_ends (h : ∃ c ∈ text, p c = false) (tail : List Char) :
    (text ++ tail).takeWhile p = text.takeWhile p := by
  obtain ⟨c, hc, hend⟩ := h
  obtain ⟨first, last, rfl⟩ := List.append_of_mem hc
  rw [List.append_assoc, List.cons_append, takeWhile_stop hend, takeWhile_stop hend]

theorem takeWhile_append_more (p : Char → Bool) (text tail : List Char) :
    ∃ more, (text ++ tail).takeWhile p = text.takeWhile p ++ more := by
  by_cases h : ∃ c ∈ text, p c = false
  · exact ⟨[], by rw [takeWhile_append_ends h, List.append_nil]⟩
  · have hall : ∀ c ∈ text, p c = true := fun c hc ↦ by
      simpa using fun hend ↦ h ⟨c, hc, hend⟩
    exact ⟨tail.takeWhile p, by
      rw [takeWhile_append_all hall, List.takeWhile_eq_self_iff.mpr hall]⟩

theorem urlText_ends (h : (urlText text).length < text.length) (tail : List Char) :
    urlText (text ++ tail) = urlText text := by
  by_cases hurl : ∃ c ∈ text, (!isUrlTerminator c) = false
  · unfold urlText
    dsimp only
    rw [takeWhile_append_ends hurl]
  · have hall : ∀ c ∈ text, (!isUrlTerminator c) = true := fun c hc ↦ by
      cases hend : !isUrlTerminator c with
      | true => rfl
      | false => exact absurd ⟨c, hc, hend⟩ hurl
    obtain ⟨more, hmore⟩ := takeWhile_append_more (fun c ↦ !isQueryMark c) text
      (tail.takeWhile fun c ↦ !isUrlTerminator c)
    unfold urlText at h ⊢
    dsimp only at h ⊢
    rw [List.takeWhile_eq_self_iff.mpr hall] at h ⊢
    rw [takeWhile_append_all hall, hmore]
    by_cases hany : (text.takeWhile fun c ↦ !isQueryMark c).any isUrlHeadTerminator = true
    · obtain ⟨c, hc, hend⟩ := List.any_eq_true.mp hany
      rw [if_pos hany, List.any_append, hany, Bool.true_or, if_pos rfl,
        takeWhile_append_ends ⟨c, hc, by rw [hend]; rfl⟩]
    · rw [if_neg hany] at h
      exact absurd h (Nat.lt_irrefl _)

/-! ## What is shown of a URL -/

def endsAuthority (c : Char) : Bool :=
  c == '/' || isQueryMark c

theorem redactUrl_authority (scheme rest : List Char) : redactUrl scheme rest = (do
    let host := shownHost (rest.takeWhile fun c ↦ !endsAuthority c)
    let tail := rest.dropWhile fun c ↦ !endsAuthority c
    match findBy isQueryMark tail with
    | some mark => do
      let (path, query) ← cut mark tail
      let (separator, _) ← cut 1 query
      return scheme ++ schemeMark ++ host ++ (← redactPath path) ++ separator ++ redaction
    | none => return scheme ++ schemeMark ++ host ++ (← redactPath tail)) := by
  unfold redactUrl
  show (cut ((findBy endsAuthority rest).getD (byteLen rest)) rest >>= _) = _
  rw [findBy_getD_length, cut_takeWhile]
  rfl

theorem shownHost_userinfo (userinfo host : List Char) :
    shownHost (userinfo ++ '@' :: host) = shownHost ('@' :: host) := by
  unfold shownHost afterLast
  rw [if_pos (by simp), if_pos (by simp), rtakeWhile_stop (by decide)]
  have hbare : ('@' :: host).rtakeWhile (· != '@') = host.rtakeWhile (· != '@') :=
    @rtakeWhile_stop [] host (· != '@') '@' (by decide)
  rw [hbare]

theorem redactUrl_userinfo {userinfo : List Char}
    (h : ∀ c ∈ userinfo, endsAuthority c = false) (scheme rest : List Char) :
    redactUrl scheme (userinfo ++ '@' :: rest) = redactUrl scheme ('@' :: rest) := by
  have hat : endsAuthority '@' = false := by decide
  have hall : ∀ c ∈ userinfo, (!endsAuthority c) = true := fun c hc ↦ by rw [h c hc]; rfl
  have htake : (userinfo ++ '@' :: rest).takeWhile (fun c ↦ !endsAuthority c) =
      userinfo ++ '@' :: rest.takeWhile fun c ↦ !endsAuthority c := by
    rw [takeWhile_append_all hall, List.takeWhile_cons_of_pos (by rw [hat]; rfl)]
  have hdrop : (userinfo ++ '@' :: rest).dropWhile (fun c ↦ !endsAuthority c) =
      rest.dropWhile fun c ↦ !endsAuthority c := by
    rw [List.dropWhile_append_of_pos hall, List.dropWhile_cons_of_pos (by rw [hat]; rfl)]
  have htake' : ('@' :: rest).takeWhile (fun c ↦ !endsAuthority c) =
      '@' :: rest.takeWhile fun c ↦ !endsAuthority c :=
    List.takeWhile_cons_of_pos (by rw [hat]; rfl)
  have hdrop' : ('@' :: rest).dropWhile (fun c ↦ !endsAuthority c) =
      rest.dropWhile fun c ↦ !endsAuthority c :=
    List.dropWhile_cons_of_pos (by rw [hat]; rfl)
  rw [redactUrl_authority, redactUrl_authority, htake, hdrop, htake', hdrop',
    shownHost_userinfo]

theorem redactUrl_query (h : ∀ c ∈ front, isQueryMark c = false) (hmark : isQueryMark mark = true)
    (scheme query : List Char) : redactUrl scheme (front ++ mark :: query) = (do
      let host := shownHost (front.takeWhile fun c ↦ !endsAuthority c)
      let path ← redactPath (front.dropWhile fun c ↦ !endsAuthority c)
      return scheme ++ schemeMark ++ host ++ path ++ [mark] ++ redaction) := by
  have hstop : (!endsAuthority mark) = false := by
    unfold endsAuthority
    rw [hmark, Bool.or_true]
    rfl
  have hpath : ∀ c ∈ front.dropWhile (fun c ↦ !endsAuthority c), isQueryMark c = false :=
    fun c hc ↦ h c (( List.dropWhile_suffix _).subset hc)
  rw [redactUrl_authority, takeWhile_stop hstop, dropWhile_stop hstop]
  dsimp only
  rw [findBy_append hpath hmark]
  dsimp only
  rw [cut_append]
  show (cut 1 (mark :: query) >>= _) = _
  rw [cut_one (queryMark_size hmark)]
  rfl

/-! ## Texts that differ in what is hidden -/

/-- What follows a scheme in two texts: the same is shown of the URL, and the same text comes after
it, also where an earlier URL's query goes on over it. -/
structure Twin (a b : List Char) : Prop where
  shown : ∀ scheme, redactUrl scheme (urlText a) = redactUrl scheme (urlText b)
  after : a.drop (urlText a).length = b.drop (urlText b).length
  behind : (a.dropWhile fun c ↦ !isUrlTerminator c) = b.dropWhile fun c ↦ !isUrlTerminator c

variable {a b scheme : List Char} {inner : Redactor}

theorem redactRest_turns (inner : Redactor) {turns turns' : Nat} {rest : List Char}
    (h : rest.length < turns) (h' : rest.length < turns') (out : List Char) :
    redactRest inner turns out rest = redactRest inner turns' out rest := by
  induction turns generalizing turns' out rest with
  | zero => exact absurd h (Nat.not_lt_zero _)
  | succ turns ih =>
    obtain _ | turns' := turns'
    · exact absurd h' (Nat.not_lt_zero _)
    obtain ⟨found, hsplit, hfound⟩ := splitUrl_yields rest
    rw [redactRest, redactRest, hsplit]
    cases found with
    | none => rfl
    | some found =>
      have hlength := congrArg List.length (hfound found rfl).text
      simp only [List.length_append, schemeMark_eq, List.length_cons] at hlength
      show (redactCut inner found >>= _) = (redactCut inner found >>= _)
      congr 1
      funext shown
      exact ih (by omega) (by omega) _

theorem redactCore_of_url {found : UrlCut} (h : splitUrl core = .ok (some found)) (levels : Nat)
    (closing : List Char) : redactCore (levels + 1) core closing = (do
      return (← redactRest (redactCore levels) (core.length + 1) [] core, .none)) := by
  obtain ⟨answer, hsplit, hfound⟩ := splitUrl_yields core
  obtain rfl : answer = some found := Except.ok.inj (hsplit.symm.trans h)
  have hlength := congrArg List.length (hfound found rfl).text
  simp only [List.length_append, schemeMark_eq, List.length_cons] at hlength
  rw [redactCore, redactRest, h]
  show (redactCut _ found >>= _) = ((redactCut _ found >>= _) >>= _)
  rw [bind_assoc]
  congr 1
  funext shown
  rw [redactRest_turns _ (Nat.lt_succ_self _) (by omega : found.rest.length < core.length)]
  rfl

theorem no_mark_append (h : ¬ schemeMark <:+: before) (hslash : '/' ∉ after) :
    ¬ schemeMark <:+: before ++ after := by
  rintro ⟨x, y, hxy⟩
  have hsplit : (x ++ [':', '/']) ++ '/' :: y = before ++ after := by
    rw [← hxy, schemeMark_eq]
    simp
  obtain ⟨gap, rfl, hgap⟩ | ⟨gap, -, hgap⟩ := List.append_eq_append_iff.mp hsplit
  · obtain _ | ⟨c, gap⟩ := gap
    · rw [List.nil_append] at hgap
      exact hslash (hgap ▸ List.mem_cons_self)
    · rw [List.cons_append, List.cons.injEq] at hgap
      obtain ⟨rfl, rfl⟩ := hgap
      exact h ⟨x, gap, by rw [schemeMark_eq]; simp⟩
  · exact hslash (hgap ▸ List.mem_append_right gap List.mem_cons_self)

/-- A scheme as the scan sees it. -/
structure Scheme (scheme : List Char) : Prop where
  nonempty : scheme ≠ []
  bytes : ∀ c ∈ scheme, isSchemeByte c = true

theorem schemeByte_ascii (h : isSchemeByte c = true) : c.toNat < 128 := by
  simp only [isSchemeByte, Bool.or_eq_true, beq_iff_eq] at h
  obtain ((h | rfl) | rfl) | rfl := h
  · exact alphanumeric_ascii h
  all_goals decide

theorem schemeByte_parts (h : isSchemeByte c = true) :
    c ≠ '/' ∧ isUrlTerminator c = false := by
  have hparts := ascii_induction
    (P := fun c ↦ isSchemeByte c = true → (c != '/' && !isUrlTerminator c) = true)
    (by decide +kernel) (schemeByte_ascii h) h
  simpa using hparts

theorem Scheme.no_slash (h : Scheme scheme) : '/' ∉ scheme :=
  fun hslash ↦ (schemeByte_parts (h.bytes '/' hslash)).1 rfl

theorem schemeRun_scheme (h : Scheme scheme) (before : List Char) :
    schemeRun (before ++ scheme) ≠ [] := by
  rw [schemeRun, List.rtakeWhile, List.reverse_append,
    takeWhile_append_all fun c hc ↦ h.bytes c (List.mem_reverse.mp hc)]
  simp [h.nonempty]

theorem cutAt_of_scheme (h : schemeRun before ≠ []) (after : List Char) :
    cutAt before after = some ⟨before.rdropWhile isSchemeByte, schemeRun before, urlText after,
      after.drop (urlText after).length⟩ := by
  unfold cutAt
  rw [if_neg (by simpa using h)]

theorem redactRest_url (h : ¬ schemeMark <:+: before) (hscheme : schemeRun before ≠ [])
    (turns : Nat) (out after : List Char) :
    redactRest inner (turns + 1) out (before ++ schemeMark ++ after) = (do
      let lead ← redactAround inner (before.rdropWhile isSchemeByte)
      let shown ← redactUrl (schemeRun before) (urlText after)
      redactRest inner turns (out ++ (lead ++ shown)) (after.drop (urlText after).length)) := by
  rw [redactRest, splitUrl_of_mark h, cutAt_of_scheme hscheme]
  show (redactCut inner _ >>= _) = _
  rw [redactCut, bind_assoc]
  congr 1
  funext lead
  rw [bind_assoc]
  rfl

theorem urlText_within (hopen : urlText text = text) (hquery : text.any isQueryMark = true)
    (tail : List Char) :
    urlText (text ++ tail) = text ++ tail.takeWhile fun c ↦ !isUrlTerminator c := by
  obtain ⟨mark, hmem, hmark⟩ := List.any_eq_true.mp hquery
  obtain ⟨front, query, rfl⟩ := List.append_of_mem hmem
  exact urlText_query hopen hmark tail

theorem drop_takeWhile (p : Char → Bool) (text : List Char) :
    text.drop (text.takeWhile p).length = text.dropWhile p := by
  conv_lhs =>
    enter [2]
    rw [← List.takeWhile_append_dropWhile (p := p) (l := text)]
  rw [List.drop_left]

theorem drop_within (hopen : urlText text = text) (hquery : text.any isQueryMark = true)
    (tail : List Char) : (text ++ tail).drop (urlText (text ++ tail)).length =
      tail.dropWhile fun c ↦ !isUrlTerminator c := by
  rw [urlText_within hopen hquery, List.length_append, ← List.drop_drop, List.drop_left,
    drop_takeWhile]

theorem redactUrl_within (hquery : text.any isQueryMark = true) (scheme x y : List Char) :
    redactUrl scheme (text ++ x) = redactUrl scheme (text ++ y) := by
  obtain ⟨mark, hmem, hmark⟩ := List.any_eq_true.mp hquery
  cases hfind : findBy isQueryMark text with
  | none => exact absurd hmark (by rw [findBy_eq_none.mp hfind mark hmem]; decide)
  | some n =>
    obtain ⟨front, first, query, rfl, -, hfirst, hfront⟩ := findBy_eq_some hfind
    rw [List.append_assoc, List.append_assoc, List.cons_append, List.cons_append,
      redactUrl_query hfront hfirst, redactUrl_query hfront hfirst]

/-- The loop over the URLs puts out the same for two texts that are the same up to a scheme. -/
theorem redactRest_twin (hscheme : Scheme scheme) (htwin : Twin a b) {near : List Char}
    (hscanned : Scanned near) {turns turns' : Nat}
    (h : (near ++ scheme ++ schemeMark ++ a).length < turns)
    (h' : (near ++ scheme ++ schemeMark ++ b).length < turns') (out : List Char) :
    redactRest inner turns out (near ++ scheme ++ schemeMark ++ a) =
      redactRest inner turns' out (near ++ scheme ++ schemeMark ++ b) := by
  induction hscanned generalizing turns turns' out with
  | plain hplain =>
    obtain _ | turns := turns
    · exact absurd h (Nat.not_lt_zero _)
    obtain _ | turns' := turns'
    · exact absurd h' (Nat.not_lt_zero _)
    have hfirst := no_mark_append hplain hscheme.no_slash
    rw [redactRest_url hfirst (schemeRun_scheme hscheme _),
      redactRest_url hfirst (schemeRun_scheme hscheme _), htwin.shown, htwin.after]
    simp only [List.length_append, schemeMark_eq, List.length_cons] at h h'
    congr 1
    funext lead
    congr 1
    funext shown
    rw [← htwin.after]
    refine redactRest_turns inner ?_ ?_ _
    · rw [List.length_drop]
      omega
    · rw [htwin.after, List.length_drop]
      omega
  | @url before after hbefore hrun hends _ ih =>
    obtain _ | turns := turns
    · exact absurd h (Nat.not_lt_zero _)
    obtain _ | turns' := turns'
    · exact absurd h' (Nat.not_lt_zero _)
    have hafter (x : List Char) : before ++ schemeMark ++ after ++ scheme ++ schemeMark ++ x =
        before ++ schemeMark ++ (after ++ (scheme ++ schemeMark ++ x)) := by
      simp
    have hdrop (x : List Char) :
        (after ++ (scheme ++ schemeMark ++ x)).drop (urlText after).length =
          after.drop (urlText after).length ++ scheme ++ schemeMark ++ x := by
      rw [List.drop_append_of_le_length hends.le]
      simp
    rw [hafter, hafter, redactRest_url hbefore hrun, redactRest_url hbefore hrun,
      urlText_ends hends, urlText_ends hends, hdrop, hdrop]
    simp only [List.length_append, schemeMark_eq, List.length_cons] at h h'
    congr 1
    funext lead
    congr 1
    funext shown
    refine ih ?_ ?_ _
    all_goals
      simp only [List.length_append, schemeMark_eq, List.length_cons, List.length_drop]
      omega
  | @query before after hbefore hrun hopen hmark =>
    obtain _ | turns := turns
    · exact absurd h (Nat.not_lt_zero _)
    obtain _ | turns' := turns'
    · exact absurd h' (Nat.not_lt_zero _)
    have hafter (x : List Char) : before ++ schemeMark ++ after ++ scheme ++ schemeMark ++ x =
        before ++ schemeMark ++ (after ++ (scheme ++ schemeMark ++ x)) := by
      simp
    -- The earlier URL's query goes on to the first terminator.
    have hpass : ∀ c ∈ scheme ++ schemeMark, (!isUrlTerminator c) = true := by
      intro c hc
      obtain hc | hc := List.mem_append.mp hc
      · rw [(schemeByte_parts (hscheme.bytes c hc)).2]
        rfl
      · exact (by decide : ∀ c ∈ schemeMark, (!isUrlTerminator c) = true) c hc
    have hrest (x : List Char) : (after ++ (scheme ++ schemeMark ++ x)).drop
        (urlText (after ++ (scheme ++ schemeMark ++ x))).length =
          x.dropWhile fun c ↦ !isUrlTerminator c := by
      rw [drop_within hopen hmark, List.dropWhile_append_of_pos hpass]
    rw [hafter, hafter, redactRest_url hbefore hrun, redactRest_url hbefore hrun, hrest, hrest,
      htwin.behind, urlText_within hopen hmark, urlText_within hopen hmark,
      redactUrl_within hmark _ _ ((scheme ++ schemeMark ++ b).takeWhile _)]
    simp only [List.length_append, schemeMark_eq, List.length_cons] at h h'
    congr 1
    funext lead
    congr 1
    funext shown
    refine redactRest_turns inner ?_ ?_ _
    · rw [← htwin.behind]
      have hlength := ( List.dropWhile_suffix (fun c ↦ !isUrlTerminator c) (l := a)).length_le
      omega
    · have hlength := ( List.dropWhile_suffix (fun c ↦ !isUrlTerminator c) (l := b)).length_le
      omega

/-! ## Words that differ in what is hidden -/

theorem trimStart_append (htail : ∀ c ∈ tail.head?, Uri.isTrimmed c = false) (hnil : tail ≠ [])
    (text : List Char) : trimStartWrappers (text ++ tail) = trimStartWrappers text ++ tail := by
  obtain ⟨c, rest, rfl⟩ := List.exists_cons_of_ne_nil hnil
  have hc : isWrapper c = false ∧ (c == '\\') = false := by
    simpa [Uri.isTrimmed] using htail c rfl
  induction text with
  | nil =>
    rw [List.nil_append, trimStartWrappers, trimStartWrappers, hc.1, hc.2]
    rfl
  | cons d text ih =>
    rw [List.cons_append, trimStartWrappers, trimStartWrappers]
    have hhead : (text ++ c :: rest).head?.any isWrapper = text.head?.any isWrapper := by
      cases text with
      | nil => exact hc.1
      | cons e text => rfl
    rw [hhead, ih]
    split <;> rfl

theorem trimEnd_of_kept (h : ∃ c ∈ tail, Uri.isTrimmed c = false) (front : List Char) :
    trimEndWrappers (front ++ tail) = front ++ trimEndWrappers tail ∧
      (front ++ tail).rtakeWhile Uri.isTrimmed = tail.rtakeWhile Uri.isTrimmed := by
  obtain ⟨c, hc, hkept⟩ := h
  obtain ⟨x, y, rfl⟩ := List.append_of_mem hc
  have hreverse : (x ++ c :: y).reverse = y.reverse ++ c :: x.reverse := by simp
  have hsplit : (front ++ (x ++ c :: y)).reverse = y.reverse ++ c :: (x.reverse ++ front.reverse) :=
    by simp
  constructor
  · show (front ++ (x ++ c :: y)).rdropWhile Uri.isTrimmed =
      front ++ (x ++ c :: y).rdropWhile Uri.isTrimmed
    rw [List.rdropWhile, List.rdropWhile, hsplit, hreverse, dropWhile_stop hkept,
      dropWhile_stop hkept]
    simp
  · rw [List.rtakeWhile, List.rtakeWhile, hsplit, hreverse, takeWhile_stop hkept,
      takeWhile_stop hkept]

/-- What is kept of the end of a text: the last character of its first part, or something of its
second. -/
def Kept (front tail : List Char) : Prop :=
  (∃ c ∈ tail, Uri.isTrimmed c = false) ∨ ∃ x c, front = x ++ [c] ∧ Uri.isTrimmed c = false

theorem Kept.trimEnd (h : Kept front tail) (before : List Char) :
    trimEndWrappers (before ++ (front ++ tail)) = before ++ (front ++ trimEndWrappers tail) ∧
      (before ++ (front ++ tail)).rtakeWhile Uri.isTrimmed = tail.rtakeWhile Uri.isTrimmed := by
  obtain hkept | ⟨x, c, rfl, hc⟩ := h
  · have htrim := trimEnd_of_kept hkept (before ++ front)
    simpa only [List.append_assoc] using htrim
  · by_cases hkept : ∃ d ∈ tail, Uri.isTrimmed d = false
    · have htrim := trimEnd_of_kept hkept (before ++ (x ++ [c]))
      simpa only [List.append_assoc] using htrim
    · have hall : ∀ d ∈ tail, Uri.isTrimmed d = true := fun d hd ↦ by
        simpa using fun hend ↦ hkept ⟨d, hd, hend⟩
      have hdrop : tail.rdropWhile Uri.isTrimmed = [] := List.rdropWhile_eq_nil_iff.mpr hall
      have htake : tail.rtakeWhile Uri.isTrimmed = tail := List.rtakeWhile_eq_self_iff.mpr hall
      have hreverse : (before ++ (x ++ [c] ++ tail)).reverse =
          tail.reverse ++ c :: (x.reverse ++ before.reverse) := by simp
      have hreversed : ∀ d ∈ tail.reverse, Uri.isTrimmed d = true :=
        fun d hd ↦ hall d (List.mem_reverse.mp hd)
      constructor
      · show (before ++ (x ++ [c] ++ tail)).rdropWhile Uri.isTrimmed =
          before ++ (x ++ [c] ++ tail.rdropWhile Uri.isTrimmed)
        rw [hdrop, List.rdropWhile, hreverse, List.dropWhile_append_of_pos hreversed,
          List.dropWhile_cons_of_neg (by simp [hc])]
        simp
      · rw [htake, List.rtakeWhile, hreverse, takeWhile_append_all hreversed,
          List.takeWhile_cons_of_neg (by simp [hc])]
        simp

theorem mem_dropWhile_of_kept (h : c ∈ text) (hkept : p c = false) : c ∈ text.dropWhile p := by
  obtain ⟨x, y, rfl⟩ := List.append_of_mem h
  rw [dropWhile_stop hkept]
  exact List.mem_append_right _ List.mem_cons_self

theorem mem_rdropWhile_of_kept (h : c ∈ text) (hkept : p c = false) : c ∈ text.rdropWhile p :=
  List.mem_reverse.mpr (mem_dropWhile_of_kept (List.mem_reverse.mpr h) hkept)

theorem slash_folded (h : '/' ∈ core) : '/' ∈ foldAscii core :=
  List.mem_map.mpr ⟨'/', h, by decide⟩

theorem slash_notMem_key : ∀ key ∈ credentialKeys, '/' ∉ key := by
  simp only [credentialKeys, List.map_cons, List.map_nil]
  repeat rw [String.toList_ofList]
  decide

theorem slash_no_key (h : '/' ∈ core) : isCredentialKey core = false := by
  have htrim : '/' ∈ trimKey core := by
    unfold trimKey
    refine mem_rdropWhile_of_kept (mem_dropWhile_of_kept ?_ (by decide)) (by decide)
    exact mem_rdropWhile_of_kept (mem_dropWhile_of_kept h (by decide)) (by decide)
  have hslash : '/' ∈ normaliseKey core :=
    List.mem_map.mpr ⟨'/', slash_folded htrim, by decide⟩
  cases hkey : isCredentialKey core with
  | false => rfl
  | true =>
    have hmem : normaliseKey core ∈ credentialKeys := by
      simpa [isCredentialKey] using hkey
    exact absurd hslash (slash_notMem_key _ hmem)

theorem slash_no_scheme_word (h : '/' ∈ core) : isSchemeWord core = false := by
  cases hword : isSchemeWord core with
  | false => rfl
  | true =>
    have hmem : foldAscii core ∈ schemeWords := by
      simpa [isSchemeWord] using hword
    exact absurd (slash_folded h) ((by decide : ∀ word ∈ schemeWords, '/' ∉ word) _ hmem)

theorem redactWord_slash {word : List Char} (h : '/' ∈ (wrapped word).core) :
    redactWord 4 word = (do
      let (rendered, carry) ← redactCore 4 (wrapped word).core (wrapped word).trail
      return ((wrapped word).lead ++ rendered ++ (wrapped word).trail,
        followOn (wrapped word).trail carry)) := by
  have hstem : '/' ∈ (wrapped word).core.rdropWhile fun c ↦ c == ':' || c == '=' :=
    mem_rdropWhile_of_kept h (by decide)
  have hnonempty : (wrapped word).core.isEmpty = false := by
    cases hcore : (wrapped word).core with
    | nil => rw [hcore] at h; cases h
    | cons => rfl
  unfold redactWord
  rw [splitWrappers_eq]
  show (if (wrapped word).core.isEmpty then _ else if _ then _ else if _ then _ else _) = _
  rw [hnonempty, slash_no_key hstem, slash_no_scheme_word h, Bool.and_false]
  rfl

/-- A scheme that begins with a letter. -/
structure Scheme.Lettered (scheme : List Char) : Prop extends Scheme scheme where
  letter : ∀ c ∈ scheme.head?, Uri.isTrimmed c = false

theorem wrapped_url (hscheme : Scheme.Lettered scheme) (hkept : Kept front tail)
    (near : List Char) : wrapped (near ++ (scheme ++ schemeMark ++ (front ++ tail))) =
      ⟨(wrapped near).lead,
        trimStartWrappers near ++ scheme ++ schemeMark ++ (front ++ trimEndWrappers tail),
        tail.rtakeWhile Uri.isTrimmed⟩ := by
  have hstart : trimStartWrappers (near ++ (scheme ++ schemeMark ++ (front ++ tail))) =
      trimStartWrappers near ++ (scheme ++ schemeMark ++ (front ++ tail)) := by
    refine trimStart_append ?_ (by simp [hscheme.nonempty]) near
    rw [List.append_assoc, List.head?_append_of_ne_nil _ hscheme.nonempty]
    exact hscheme.letter
  obtain ⟨htrim, htrail⟩ := hkept.trimEnd (trimStartWrappers near ++ scheme ++ schemeMark)
  have hlead : (wrapped (near ++ (scheme ++ schemeMark ++ (front ++ tail)))).lead =
      (wrapped near).lead := by
    have hwhole := wrapped_lead (near ++ (scheme ++ schemeMark ++ (front ++ tail)))
    rw [hstart, ← List.append_assoc] at hwhole
    have hnear := (List.append_cancel_right hwhole).trans (wrapped_lead near).symm
    exact List.append_cancel_right hnear
  have hassoc : trimStartWrappers near ++ (scheme ++ schemeMark ++ (front ++ tail)) =
      trimStartWrappers near ++ scheme ++ schemeMark ++ (front ++ tail) := by
    simp only [List.append_assoc]
  show Wrapped.mk (wrapped (near ++ (scheme ++ schemeMark ++ (front ++ tail)))).lead
    (trimEndWrappers (trimStartWrappers (near ++ (scheme ++ schemeMark ++ (front ++ tail)))))
    ((trimStartWrappers (near ++ (scheme ++ schemeMark ++ (front ++ tail)))).rtakeWhile
      Uri.isTrimmed) = _
  rw [hlead, hstart, hassoc, htrim, htrail]

theorem splitUrl_scanned (hscheme : Scheme scheme) {near : List Char} (h : Scanned near)
    (a : List Char) : ∃ found, splitUrl (near ++ scheme ++ schemeMark ++ a) = .ok (some found) := by
  cases h with
  | plain hplain =>
    have hsplit := splitUrl_of_mark (no_mark_append hplain hscheme.no_slash) a
    rw [cutAt_of_scheme (schemeRun_scheme hscheme _)] at hsplit
    exact ⟨_, hsplit⟩
  | @url before after hbefore hrun =>
    have hsplit := splitUrl_of_mark hbefore (after ++ (scheme ++ (schemeMark ++ a)))
    rw [cutAt_of_scheme hrun] at hsplit
    simp only [List.append_assoc] at hsplit ⊢
    exact ⟨_, hsplit⟩
  | @query before after hbefore hrun =>
    have hsplit := splitUrl_of_mark hbefore (after ++ (scheme ++ (schemeMark ++ a)))
    rw [cutAt_of_scheme hrun] at hsplit
    simp only [List.append_assoc] at hsplit ⊢
    exact ⟨_, hsplit⟩

theorem redactCore_twin (hscheme : Scheme scheme) (htwin : Twin a b) {near : List Char}
    (hscanned : Scanned near) (levels : Nat) (closing : List Char) :
    redactCore (levels + 1) (near ++ scheme ++ schemeMark ++ a) closing =
      redactCore (levels + 1) (near ++ scheme ++ schemeMark ++ b) closing := by
  obtain ⟨found, hfound⟩ := splitUrl_scanned hscheme hscanned a
  obtain ⟨found', hfound'⟩ := splitUrl_scanned hscheme hscanned b
  rw [redactCore_of_url hfound, redactCore_of_url hfound',
    redactRest_twin hscheme htwin hscanned (Nat.lt_succ_self _) (Nat.lt_succ_self _)]

theorem redactWord_twin (hscheme : Scheme.Lettered scheme) {near front' : List Char}
    (hscanned : Scanned (trimStartWrappers near)) (hkept : Kept front tail)
    (hkept' : Kept front' tail)
    (htwin : Twin (front ++ trimEndWrappers tail) (front' ++ trimEndWrappers tail)) :
    redactWord 4 (near ++ (scheme ++ schemeMark ++ (front ++ tail))) =
      redactWord 4 (near ++ (scheme ++ schemeMark ++ (front' ++ tail))) := by
  have hslash (x : List Char) : '/' ∈ trimStartWrappers near ++ scheme ++ schemeMark ++ x := by
    simp [schemeMark_eq]
  rw [redactWord_slash (by rw [wrapped_url hscheme hkept]; exact hslash _),
    redactWord_slash (by rw [wrapped_url hscheme hkept']; exact hslash _),
    wrapped_url hscheme hkept, wrapped_url hscheme hkept']
  dsimp only
  rw [redactCore_twin hscheme.toScheme htwin hscanned 3]

/-! ## Texts -/

theorem endsAValue_kept (h : Kept front tail) (before : List Char) :
    endsAValue (before ++ (front ++ tail)) = endsAValue tail := by
  unfold endsAValue
  by_cases hnil : tail = []
  · obtain ⟨c, hc, -⟩ | ⟨x, c, rfl, hc⟩ := h
    · rw [hnil] at hc
      cases hc
    · have hseparator : (c == ',' || c == ';') = false := by
        cases hword : (c == ',' || c == ';') with
        | false => rfl
        | true =>
          simp only [Bool.or_eq_true, beq_iff_eq] at hword
          obtain rfl | rfl := hword
          · exact absurd hc (by decide)
          · exact absurd hc (by decide)
      simp [hnil, hseparator]
  · rw [List.getLast?_append_of_ne_nil _ (by simp [hnil]), List.getLast?_append_of_ne_nil _ hnil]

theorem splitInclusive_blank (h : ∀ c ∈ before.getLast?, isWhitespace c = true)
    (after : List Char) : splitInclusiveBy isWhitespace (before ++ after) =
      splitInclusiveBy isWhitespace before ++ splitInclusiveBy isWhitespace after := by
  induction before using word_induction with
  | empty => rfl
  | last word hnil hword =>
    have hlast := h _ (List.getLast?_eq_some_getLast hnil)
    rw [hword _ (List.getLast_mem hnil)] at hlast
    cases hlast
  | word word c rest hword hc ih =>
    rw [List.append_assoc, List.cons_append, splitInclusive_append hword hc,
      splitInclusive_append hword hc, ih ?_, List.cons_append]
    intro d hd
    refine h d ?_
    rw [List.getLast?_append_of_ne_nil _ (List.cons_ne_nil c rest), List.getLast?_cons, hd]
    rfl

theorem redact_of_words {word word' : List Char} (hnil : word ≠ []) (hnil' : word' ≠ [])
    (hplain : Plain word) (hplain' : Plain word') (hends : endsAValue word = endsAValue word')
    (hword : redactWord 4 word = redactWord 4 word')
    (hbefore : ∀ c ∈ before.getLast?, isWhitespace c = true)
    (hafter : ∀ c ∈ after.head?, isWhitespace c = true) :
    redact (before ++ (word ++ after)) = redact (before ++ (word' ++ after)) := by
  have hchunk {blank : List Char}
      (hblank : ∀ word, Plain word → splitTrailingWhitespace (word ++ blank) = .ok (word, blank))
      (state : List Char × Nat) :
      redactChunk 4 state (word ++ blank) = redactChunk 4 state (word' ++ blank) := by
    have hempty : word.isEmpty = word'.isEmpty := by
      rw [List.isEmpty_eq_false_iff.mpr hnil, List.isEmpty_eq_false_iff.mpr hnil']
    have hfirst := List.isEmpty_eq_false_iff.mpr hnil'
    unfold redactChunk
    rw [hblank word hplain, hblank word' hplain']
    show (if word.isEmpty then _ else if _ then pure (_, if endsAValue word then _ else _) else _) =
      (if word'.isEmpty then _ else if _ then pure (_, if endsAValue word' then _ else _) else _)
    rw [hempty, hends, hword, hfirst]
  have hwords : splitInclusiveBy isWhitespace (word ++ after) =
      (word ++ after.take 1) :: splitInclusiveBy isWhitespace (after.drop 1) ∧
      splitInclusiveBy isWhitespace (word' ++ after) =
      (word' ++ after.take 1) :: splitInclusiveBy isWhitespace (after.drop 1) := by
    cases after with
    | nil =>
      simp only [List.append_nil, List.take_nil, List.drop_nil, splitInclusive_word hnil hplain,
        splitInclusive_word hnil' hplain']
      exact ⟨rfl, rfl⟩
    | cons c rest =>
      have hc := hafter c rfl
      exact ⟨splitInclusive_append hplain hc, splitInclusive_append hplain' hc⟩
  have hblank : ∀ word, Plain word →
      splitTrailingWhitespace (word ++ after.take 1) = .ok (word, after.take 1) := by
    intro word hplain
    cases after with
    | nil =>
      rw [List.take_nil, List.append_nil]
      exact splitTrailing_word hplain
    | cons c rest => exact splitTrailing_blank (hafter c rfl)
  unfold redact redactWithin
  rw [splitInclusive_blank hbefore, splitInclusive_blank hbefore, hwords.1, hwords.2,
    List.foldlM_append, List.foldlM_append]
  simp only [List.foldlM_cons, hchunk hblank]

theorem redact_twin (hscheme : Scheme.Lettered scheme) {near front' : List Char}
    (hscanned : Scanned (trimStartWrappers near)) (hkept : Kept front tail)
    (hkept' : Kept front' tail)
    (htwin : Twin (front ++ trimEndWrappers tail) (front' ++ trimEndWrappers tail))
    (hplain : Plain (near ++ (scheme ++ schemeMark ++ (front ++ tail))))
    (hplain' : Plain (near ++ (scheme ++ schemeMark ++ (front' ++ tail))))
    (hbefore : ∀ c ∈ before.getLast?, isWhitespace c = true)
    (hafter : ∀ c ∈ after.head?, isWhitespace c = true) :
    redact (before ++ (near ++ (scheme ++ schemeMark ++ (front ++ tail)) ++ after)) =
      redact (before ++ (near ++ (scheme ++ schemeMark ++ (front' ++ tail)) ++ after)) := by
  refine redact_of_words (by simp [hscheme.nonempty]) (by simp [hscheme.nonempty]) hplain hplain'
    ?_ (redactWord_twin hscheme hscanned hkept hkept' htwin) hbefore hafter
  have hends := endsAValue_kept hkept (near ++ (scheme ++ schemeMark))
  have hends' := endsAValue_kept hkept' (near ++ (scheme ++ schemeMark))
  rw [List.append_assoc] at hends hends'
  rw [hends, hends']

/-! ## URIs that differ in what is hidden -/

namespace Uri

variable {u v : Uri}

theorem isLegal_mono {marks marks' : List Char} (h : isLegal marks c = true)
    (hsub : marks ⊆ marks') : isLegal marks' c = true := by
  simp only [isLegal, Bool.or_eq_true, List.contains_eq_mem, decide_eq_true_eq] at h ⊢
  exact h.imp_right (hsub ·)

theorem mem_front (h : c ∈ u.front) :
    (∃ userinfo ∈ u.userinfo, c ∈ userinfo) ∨ c = '@' ∨ c ∈ u.host ∨ c ∈ u.path := by
  unfold Uri.front at h
  rw [List.mem_append, List.mem_append] at h
  obtain h | h := h
  · cases huserinfo : u.userinfo with
    | none =>
      rw [huserinfo] at h
      cases h
    | some userinfo =>
      rw [huserinfo] at h
      obtain h | h := List.mem_append.mp h
      · exact .inl ⟨userinfo, rfl, h⟩
      · exact .inr (.inl (List.mem_singleton.mp h))
  · exact .inr (.inr h)

theorem mem_marked (h : c ∈ u.marked) : (∃ query ∈ u.query, c ∈ query) ∨
    (∃ fragment ∈ u.fragment, c ∈ fragment) ∨ isQueryMark c = true := by
  unfold marked at h
  obtain h | h := List.mem_append.mp h
  · cases hquery : u.query with
    | none =>
      rw [hquery] at h
      cases h
    | some query =>
      rw [hquery] at h
      obtain rfl | h := List.mem_cons.mp h
      · exact .inr (.inr rfl)
      · exact .inl ⟨query, rfl, h⟩
  · cases hfragment : u.fragment with
    | none =>
      rw [hfragment] at h
      cases h
    | some fragment =>
      rw [hfragment] at h
      obtain rfl | h := List.mem_cons.mp h
      · exact .inr (.inr rfl)
      · exact .inr (.inl ⟨fragment, rfl, h⟩)

theorem alphabetic_alphanumeric (h : isAsciiAlphabetic c = true) :
    isAsciiAlphanumeric c = true := by
  simp only [isAsciiAlphabetic, isAsciiAlphanumeric, Bool.or_eq_true] at h ⊢
  exact h.imp_left .inr

theorem Legal.lettered (h : u.Legal) : Scheme.Lettered u.scheme where
  nonempty hnil := by
    have hhead := h.scheme.1
    rw [hnil] at hhead
    cases hhead
  bytes := h.scheme.2
  letter c hc := by
    have hhead := h.scheme.1
    rw [hc] at hhead
    have hordinary := alphanumeric_ordinary (alphabetic_alphanumeric hhead)
    exact (ordinary_parts hordinary).2.2.2.1

theorem Legal.mem_front (h : u.Legal) (hc : c ∈ u.front) :
    isLegal (pathMarks ++ hostMarks) c = true := by
  obtain ⟨userinfo, huserinfo, hc⟩ | rfl | hc | hc := Uri.mem_front hc
  · exact isLegal_mono (h.userinfo userinfo huserinfo c hc) (by decide)
  · decide
  · exact isLegal_mono (h.host c hc) (by decide)
  · exact isLegal_mono (h.path.2 c hc) (by decide)

theorem Legal.front_unmarked (h : u.Legal) : ∀ c ∈ u.front, isQueryMark c = false := by
  intro c hc
  have hnot := legal_cases (p := fun c ↦ !isQueryMark c) (h.mem_front hc)
    (fun hordinary ↦ by simp [(ordinary_parts hordinary).2.2.1]) (by decide)
  simpa using hnot

theorem Legal.plain_text (h : u.Legal) : Plain u.text := by
  have hfront : Plain u.front := by
    refine legal_visible (by decide) fun c hc ↦ h.mem_front hc
  have hmarked : Plain u.marked := by
    intro c hc
    obtain ⟨query, hquery, hc⟩ | ⟨fragment, hfragment, hc⟩ | hc := mem_marked hc
    · exact legal_visible (by decide) (h.query query hquery) c hc
    · exact legal_visible (by decide) (h.fragment fragment hfragment) c hc
    · simp only [isQueryMark, Bool.or_eq_true, beq_iff_eq] at hc
      obtain rfl | rfl := hc
      all_goals decide
  have hscheme : Plain u.scheme := by
    intro c hc
    have hterminator := (schemeByte_parts (h.scheme.2 c hc)).2
    simp only [isUrlTerminator, Bool.or_eq_false_iff] at hterminator
    exact hterminator.1
  unfold Uri.text Uri.rest
  simp only [plain_append]
  exact ⟨hscheme, plain_schemeMark, hfront, hmarked⟩

theorem Alike.marks (h : u.Alike v) : u.marked = [] ∧ v.marked = [] ∨
    ∃ mark query query', isQueryMark mark = true ∧ u.marked = mark :: query ∧
      v.marked = mark :: query' := by
  obtain ⟨-, -, -, -, hquery, hfragment⟩ := h
  unfold Uri.marked
  cases hu : u.query with
  | some query =>
    obtain ⟨query', hv⟩ := Option.isSome_iff_exists.mp (hquery.symm.trans (by rw [hu]; rfl))
    rw [hv]
    exact .inr ⟨'?', _, _, rfl, rfl, rfl⟩
  | none =>
    have hv : v.query = none := by simpa [hu] using hquery.symm
    rw [hv]
    cases hu : u.fragment with
    | some fragment =>
      obtain ⟨fragment', hv⟩ :=
        Option.isSome_iff_exists.mp (hfragment.symm.trans (by rw [hu]; rfl))
      rw [hv]
      exact .inr ⟨'#', _, _, rfl, rfl, rfl⟩
    | none =>
      have hv : v.fragment = none := by simpa [hu] using hfragment.symm
      rw [hv]
      exact .inl ⟨rfl, rfl⟩

theorem Alike.fronts (h : u.Alike v) : u.front = v.front ∨
    ∃ userinfo ∈ u.userinfo, ∃ userinfo' ∈ v.userinfo,
      u.front = userinfo ++ '@' :: (u.host ++ u.path) ∧
        v.front = userinfo' ++ '@' :: (u.host ++ u.path) := by
  obtain ⟨-, huserinfo, hhost, hpath, -, -⟩ := h
  unfold Uri.front
  rw [← hhost, ← hpath]
  cases hu : u.userinfo with
  | some userinfo =>
    obtain ⟨userinfo', hv⟩ :=
      Option.isSome_iff_exists.mp (huserinfo.symm.trans (by rw [hu]; rfl))
    exact .inr ⟨userinfo, rfl, userinfo', hv, by simp, by simp [hv]⟩
  | none =>
    have hv : v.userinfo = none := by simpa [hu] using huserinfo.symm
    rw [hv]
    exact .inl rfl

theorem Legal.userinfo_open (h : u.Legal) {userinfo : List Char} (hsome : userinfo ∈ u.userinfo) :
    ∀ c ∈ userinfo, endsAuthority c = false := by
  intro c hc
  have hparts := legal_authority (by decide) (h.userinfo userinfo hsome) c hc
  simp [endsAuthority, hparts]

theorem shown_front (hu : u.Legal) (hv : v.Legal) (h : u.Alike v) (scheme rest : List Char) :
    redactUrl scheme (u.front ++ rest) = redactUrl scheme (v.front ++ rest) := by
  obtain hfront | ⟨x, hx, y, hy, hxf, hyf⟩ := h.fronts
  · rw [hfront]
  · rw [hxf, hyf, List.append_assoc, List.append_assoc, List.cons_append,
      redactUrl_userinfo (hu.userinfo_open hx), redactUrl_userinfo (hv.userinfo_open hy)]

theorem Closed.kept {far : List Char} (h : u.Closed far) (hmarked : u.marked ≠ []) :
    Kept u.rest far := by
  obtain hfar | hlast := h hmarked
  · obtain ⟨c, hc, hkept⟩ := List.any_eq_true.mp hfar
    exact .inl ⟨c, hc, by simpa using hkept⟩
  · have hrest : u.rest ≠ [] := by simp [Uri.rest, hmarked]
    obtain ⟨x, c, hx⟩ := (List.eq_nil_or_concat u.rest).resolve_left hrest
    rw [List.concat_eq_append] at hx
    refine .inr ⟨x, c, hx, hlast c ?_⟩
    simp [Uri.text, hx]

theorem twin_marked (hu : u.Legal) (hv : v.Legal) (h : u.Alike v) (hwhole : u.Whole)
    (hwhole' : v.Whole) (hmarked : u.marked ≠ []) (tail : List Char) :
    Twin (u.rest ++ tail) (v.rest ++ tail) := by
  obtain ⟨hnil, -⟩ | ⟨mark, query, query', hmark, hq, hq'⟩ := h.marks
  · exact absurd hnil hmarked
  have hopen := hwhole.marked (by rw [hq]; exact List.cons_ne_nil _ _)
  have hopen' := hwhole'.marked (by rw [hq']; exact List.cons_ne_nil _ _)
  have hany : u.rest.any isQueryMark = true :=
    List.any_eq_true.mpr ⟨mark, by simp [Uri.rest, hq], hmark⟩
  have hany' : v.rest.any isQueryMark = true :=
    List.any_eq_true.mpr ⟨mark, by simp [Uri.rest, hq'], hmark⟩
  refine ⟨fun scheme ↦ ?_, ?_, ?_⟩
  · rw [urlText_within hopen hany, urlText_within hopen' hany', Uri.rest, Uri.rest, hq, hq',
      List.append_assoc, List.append_assoc, List.cons_append, List.cons_append,
      redactUrl_query hu.front_unmarked hmark,
      ← redactUrl_query hu.front_unmarked hmark scheme [], shown_front hu hv h,
      redactUrl_query hv.front_unmarked hmark, redactUrl_query hv.front_unmarked hmark]
  · rw [drop_within hopen hany, drop_within hopen' hany']
  · have hall := (whole_parts hopen).1
    have hall' := (whole_parts hopen').1
    rw [List.dropWhile_append_of_pos fun c hc ↦ by rw [hall c hc]; rfl,
      List.dropWhile_append_of_pos fun c hc ↦ by rw [hall' c hc]; rfl]

theorem twin_userinfo {x y : List Char} (hx : ∀ c ∈ x, endsAuthority c = false)
    (hy : ∀ c ∈ y, endsAuthority c = false) (hxHead : x.any isUrlHeadTerminator = false)
    (hyHead : y.any isUrlHeadTerminator = false) (tail : List Char) :
    Twin (x ++ ['@'] ++ tail) (y ++ ['@'] ++ tail) := by
  have hpass {x : List Char} (hx : ∀ c ∈ x, endsAuthority c = false)
      (hhead : x.any isUrlHeadTerminator = false) : ∀ c ∈ x ++ ['@'],
        isUrlHeadTerminator c = false ∧ isQueryMark c = false := by
    intro c hc
    obtain hc | hc := List.mem_append.mp hc
    · have hends := hx c hc
      rw [endsAuthority, Bool.or_eq_false_iff] at hends
      exact ⟨by simpa using List.any_eq_false.mp hhead c hc, hends.2⟩
    · rw [List.mem_singleton.mp hc]
      decide
  have hurl {x : List Char} (hx : ∀ c ∈ x ++ ['@'],
      isUrlHeadTerminator c = false ∧ isQueryMark c = false) :
      ∀ c ∈ x ++ ['@'], (!isUrlTerminator c) = true := by
    intro c hc
    have hhead := (hx c hc).1
    simp only [isUrlHeadTerminator, Bool.or_eq_false_iff] at hhead
    rw [hhead.1.1]
    rfl
  have hpx := hpass hx hxHead
  have hpy := hpass hy hyHead
  refine ⟨fun scheme ↦ ?_, ?_, ?_⟩
  · rw [urlText_open hpx, urlText_open hpy, List.append_assoc, List.append_assoc,
      List.cons_append, redactUrl_userinfo hx, redactUrl_userinfo hy]
  · have hdrop (x : List Char) : (x ++ ['@'] ++ tail).drop (x ++ ['@'] ++ urlText tail).length =
        tail.drop (urlText tail).length := by
      rw [List.length_append, ← List.drop_drop, List.drop_left]
    rw [urlText_open hpx, urlText_open hpy, hdrop, hdrop]
  · rw [List.dropWhile_append_of_pos (hurl hpx), List.dropWhile_append_of_pos (hurl hpy)]

end Uri

/-! ## Texts with a URI -/

theorem near_append (before : List Char) :
    before.rdropWhile (fun c ↦ !isWhitespace c) ++ near before = before :=
  List.rdropWhile_append_rtakeWhile

theorem far_append (after : List Char) :
    far after ++ after.dropWhile (fun c ↦ !isWhitespace c) = after :=
  List.takeWhile_append_dropWhile

theorem near_plain (before : List Char) : Plain (near before) := by
  intro c hc
  simpa using List.mem_rtakeWhile_imp hc

theorem far_plain (after : List Char) : Plain (far after) := by
  intro c hc
  simpa using List.mem_takeWhile_imp hc

/-- A clone URL of the host, with the user's name and the query as given. -/
def cloneUrl (userinfo query : String) : Uri where
  scheme := "https".toList
  userinfo := some userinfo.toList
  host := "github.com".toList
  path := "/o/r".toList
  query := some query.toList
  fragment := none

theorem cloneUrl_legal {userinfo query : String}
    (huserinfo : ∀ c ∈ userinfo.toList, isLegal userinfoMarks c = true)
    (hquery : ∀ c ∈ query.toList, isLegal queryMarks c = true) :
    (cloneUrl userinfo query).Legal where
  scheme := ⟨rfl, (by decide : ∀ c ∈ "https".toList, isSchemeByte c = true)⟩
  userinfo := by
    rintro _ ⟨⟩
    exact huserinfo
  host := (by decide : ∀ c ∈ "github.com".toList, isLegal hostMarks c = true)
  path := ⟨rfl, (by decide : ∀ c ∈ "/o/r".toList, isLegal pathMarks c = true)⟩
  query := by
    rintro _ ⟨⟩
    exact hquery
  fragment _ h := nomatch h

theorem cloneUrl_alike (userinfo userinfo' query query' : String) :
    (cloneUrl userinfo query).Alike (cloneUrl userinfo' query') :=
  ⟨rfl, rfl, rfl, rfl, rfl, rfl⟩

end RunnerManager.Platform.Redaction
