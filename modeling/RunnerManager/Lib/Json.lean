import RunnerManager.Lib.Text
import Mathlib.Algebra.Order.BigOperators.Group.List
import Mathlib.Algebra.Order.Group.Nat
import Mathlib.Data.List.Forall2

/-!
# JSON values

JSON values, the compact text of a value, and reading a record from an object the way a derived
reader does: a field by its name, at most once, with what a missing field means. Read
`Widens` first: a value that carries fields nobody knows. `Carries.readField` says that a reader
does not see them.
-/

namespace RunnerManager

open Text

/-- A JSON value. A number that is not a natural one is kept as it is written. -/
inductive Json where
  | null
  | bool (value : Bool)
  | number (value : Nat)
  | otherNumber (literal : List Char)
  | string (text : String)
  | array (items : List Json)
  | object (fields : List (String × Json))

namespace Json

/-! ## Text -/

def quote : Char := Char.ofNat 34

def backslash : Char := Char.ofNat 92

/-- The control characters with an escape of their own: `\b`, `\t`, `\n`, `\f` and `\r`. -/
def shortEscape (c : Char) : Option Char :=
  if c.toNat = 8 then some 'b'
  else if c.toNat = 9 then some 't'
  else if c.toNat = 10 then some 'n'
  else if c.toNat = 12 then some 'f'
  else if c.toNat = 13 then some 'r'
  else none

/-- One character inside a quoted text. -/
def escape (c : Char) : List Char :=
  if c = quote || c = backslash then [backslash, c]
  else
    match shortEscape c with
    | some letter => [backslash, letter]
    | none =>
      if c.toNat < 32 then
        [backslash, 'u', '0', '0', Nat.digitChar (c.toNat / 16), Nat.digitChar (c.toNat % 16)]
      else [c]

def quoted (text : String) : List Char :=
  quote :: (text.toList.flatMap escape ++ [quote])

theorem escape_cases (c : Char) :
    escape c = [c] ∧ c ≠ quote ∧ c ≠ backslash ∨
      ∃ rest, escape c = backslash :: rest := by
  unfold escape
  by_cases hspecial : (c = quote || c = backslash) = true
  · rw [if_pos hspecial]
    exact .inr ⟨_, rfl⟩
  · rw [if_neg hspecial]
    cases shortEscape c with
    | some letter => exact .inr ⟨_, rfl⟩
    | none =>
      by_cases hcontrol : c.toNat < 32
      · exact .inr ⟨_, if_pos hcontrol⟩
      · refine .inl ⟨if_neg hcontrol, ?_⟩
        simpa using hspecial

/-- Where a quoted text ends says what the text is. -/
theorem front_of_quoted {plain text : List Char} {rest more : List Char}
    (hplain : ∀ c ∈ plain, c ≠ quote ∧ c ≠ backslash)
    (h : plain ++ quote :: rest <+: text.flatMap escape ++ quote :: more) :
    text = plain := by
  induction plain generalizing text with
  | nil =>
    cases text with
    | nil => rfl
    | cons c text =>
      rw [List.flatMap_cons] at h
      rcases escape_cases c with ⟨hc, hquote, _⟩ | ⟨escaped, hc⟩
      · rw [hc] at h
        exact absurd (List.cons_prefix_cons.mp h).1.symm hquote
      · rw [hc] at h
        exact absurd (List.cons_prefix_cons.mp h).1 (by decide)
  | cons p plain ih =>
    obtain ⟨⟨hquote, hback⟩, hplain⟩ := List.forall_mem_cons.mp hplain
    cases text with
    | nil => exact absurd (List.cons_prefix_cons.mp h).1 hquote
    | cons c text =>
      rw [List.flatMap_cons] at h
      rcases escape_cases c with ⟨hc, _, _⟩ | ⟨escaped, hc⟩
      · rw [hc, List.append_assoc] at h
        obtain ⟨hp, hrest⟩ := List.cons_prefix_cons.mp h
        rw [hp, ih hplain hrest]
      · rw [hc] at h
        exact absurd (List.cons_prefix_cons.mp h).1 hback

mutual

/-- The compact text of a value. -/
def render : Json → List Char
  | null => ['n', 'u', 'l', 'l']
  | bool true => ['t', 'r', 'u', 'e']
  | bool false => ['f', 'a', 'l', 's', 'e']
  | number value => Nat.toDigits 10 value
  | otherNumber literal => literal
  | string text => quoted text
  | array [] => ['[', ']']
  | array (item :: rest) => '[' :: (render item ++ renderItems rest ++ [']'])
  | object [] => [Char.ofNat 123, Char.ofNat 125]
  | object ((name, value) :: rest) =>
    Char.ofNat 123 :: (quoted name ++ ':' :: render value ++ renderFields rest ++
      [Char.ofNat 125])

/-- The items after the first. -/
def renderItems : List Json → List Char
  | [] => []
  | item :: rest => ',' :: (render item ++ renderItems rest)

/-- The fields after the first. -/
def renderFields : List (String × Json) → List Char
  | [] => []
  | (name, value) :: rest => ',' :: (quoted name ++ ':' :: render value ++ renderFields rest)

end

/-- A line break and the blanks that start a line of this depth. -/
def newline (depth : Nat) : List Char :=
  Char.ofNat 10 :: List.replicate (2 * depth) ' '

mutual

/-- The text of a value on several lines. -/
def renderPretty (depth : Nat) : Json → List Char
  | null => render null
  | bool value => render (bool value)
  | number value => render (number value)
  | otherNumber literal => render (otherNumber literal)
  | string text => render (string text)
  | array [] => render (array [])
  | array (item :: rest) =>
    '[' :: (newline (depth + 1) ++ renderPretty (depth + 1) item ++
      prettyItems (depth + 1) rest ++ newline depth ++ [']'])
  | object [] => render (object [])
  | object ((name, value) :: rest) =>
    Char.ofNat 123 :: (newline (depth + 1) ++ quoted name ++ ':' :: ' ' ::
      renderPretty (depth + 1) value ++ prettyFields (depth + 1) rest ++ newline depth ++
      [Char.ofNat 125])

/-- The lines of the items after the first. -/
def prettyItems (depth : Nat) : List Json → List Char
  | [] => []
  | item :: rest =>
    ',' :: (newline depth ++ renderPretty depth item ++ prettyItems depth rest)

/-- The lines of the fields after the first. -/
def prettyFields (depth : Nat) : List (String × Json) → List Char
  | [] => []
  | (name, value) :: rest =>
    ',' :: (newline depth ++ quoted name ++ ':' :: ' ' :: renderPretty depth value ++
      prettyFields depth rest)

end

/-! ## Size -/

/-- The bytes of one character inside a quoted text. -/
def escapeSize (c : Char) : Nat :=
  if c = quote || c = backslash then 2
  else if (shortEscape c).isSome then 2
  else if c.toNat < 32 then 6
  else c.utf8Size

def quotedSize (text : String) : Nat :=
  2 + (text.toList.map escapeSize).sum

mutual

/-- How many bytes a value takes, counted without writing it. -/
def size : Json → Nat
  | null => 4
  | bool true => 4
  | bool false => 5
  | number value => (Nat.toDigits 10 value).length
  | otherNumber literal => byteLen literal
  | string text => quotedSize text
  | array [] => 2
  | array (item :: rest) => 2 + size item + sizeItems rest
  | object [] => 2
  | object ((name, value) :: rest) => 3 + quotedSize name + size value + sizeFields rest

/-- The bytes of the items after the first. -/
def sizeItems : List Json → Nat
  | [] => 0
  | item :: rest => 1 + size item + sizeItems rest

/-- The bytes of the fields after the first. -/
def sizeFields : List (String × Json) → Nat
  | [] => 0
  | (name, value) :: rest => 2 + quotedSize name + size value + sizeFields rest

end

@[simp]
theorem byteLen_nil : byteLen [] = 0 := rfl

@[simp]
theorem byteLen_cons (c : Char) (cs : List Char) : byteLen (c :: cs) = c.utf8Size + byteLen cs :=
  rfl

@[simp]
theorem byteLen_append (cs ds : List Char) : byteLen (cs ++ ds) = byteLen cs + byteLen ds := by
  simp [byteLen]

theorem byteLen_escape (c : Char) : byteLen (escape c) = escapeSize c := by
  have hdigit : ∀ n < 32, (Nat.digitChar (n / 16)).utf8Size = 1 ∧
      (Nat.digitChar (n % 16)).utf8Size = 1 := by
    decide
  have hletter : ∀ letter, shortEscape c = some letter → letter.utf8Size = 1 := by
    intro letter h
    unfold shortEscape at h
    split_ifs at h <;> cases h <;> rfl
  by_cases hspecial : (c = quote || c = backslash) = true
  · have hc : c.utf8Size = 1 := by
      rcases (by simpa using hspecial : c = quote ∨ c = backslash) with rfl | rfl <;> rfl
    rw [escape, escapeSize, if_pos hspecial, if_pos hspecial]
    show backslash.utf8Size + (c.utf8Size + 0) = 2
    rw [hc]
    rfl
  · rw [escape, escapeSize, if_neg hspecial, if_neg hspecial]
    cases hshort : shortEscape c with
    | some letter =>
      show backslash.utf8Size + (letter.utf8Size + 0) = 2
      rw [hletter letter hshort]
      rfl
    | none =>
      show byteLen (if c.toNat < 32 then _ else [c]) = if c.toNat < 32 then 6 else c.utf8Size
      by_cases hcontrol : c.toNat < 32
      · obtain ⟨hhigh, hlow⟩ := hdigit c.toNat hcontrol
        rw [if_pos hcontrol, if_pos hcontrol]
        simp only [byteLen_cons, byteLen_nil, hhigh, hlow]
        rfl
      · rw [if_neg hcontrol, if_neg hcontrol, byteLen_cons, byteLen_nil, Nat.add_zero]

theorem byteLen_quoted (text : String) : byteLen (quoted text) = quotedSize text := by
  have hescaped : ∀ cs : List Char, byteLen (cs.flatMap escape) = (cs.map escapeSize).sum := by
    intro cs
    induction cs with
    | nil => rfl
    | cons c cs ih =>
      rw [List.flatMap_cons, byteLen_append, ih, byteLen_escape, List.map_cons, List.sum_cons]
  have hquote : quote.utf8Size = 1 := rfl
  simp only [quoted, quotedSize, byteLen_cons, byteLen_append, byteLen_nil, hescaped, hquote]
  omega

theorem byteLen_toDigits (n : Nat) : byteLen (Nat.toDigits 10 n) = (Nat.toDigits 10 n).length := by
  have hdigits : ∀ c ∈ Nat.toDigits 10 n, c.utf8Size = 1 := by
    intro c hc
    have hdigit : c.isDigit = true := Nat.isDigit_of_mem_toDigits (by decide) (by decide) hc
    simp only [Char.isDigit, Bool.and_eq_true, decide_eq_true_eq] at hdigit
    have hhigh : c.val.toNat ≤ 57 := UInt32.le_iff_toNat_le.mp hdigit.2
    refine Char.utf8Size_eq_one_iff.mpr (UInt32.le_iff_toNat_le.mpr ?_)
    show c.val.toNat ≤ 127
    omega
  generalize Nat.toDigits 10 n = cs at hdigits
  induction cs with
  | nil => rfl
  | cons c cs ih =>
    rw [byteLen_cons, hdigits c List.mem_cons_self, List.length_cons,
      ih fun d hd ↦ hdigits d (List.mem_cons_of_mem c hd)]
    omega

mutual

/-- The size is the number of bytes of the text. -/
theorem byteLen_render : ∀ value : Json, byteLen (render value) = size value
  | null => rfl
  | bool true => rfl
  | bool false => rfl
  | number value => byteLen_toDigits value
  | otherNumber _ => rfl
  | string text => byteLen_quoted text
  | array [] => rfl
  | array (item :: rest) => by
    have hitem := byteLen_render item
    have hrest := byteLen_renderItems rest
    have hopen : ('[' : Char).utf8Size = 1 := rfl
    have hclose : (']' : Char).utf8Size = 1 := rfl
    simp only [render, size, byteLen_cons, byteLen_append, byteLen_nil]
    omega
  | object [] => rfl
  | object ((name, value) :: rest) => by
    have hname := byteLen_quoted name
    have hvalue := byteLen_render value
    have hrest := byteLen_renderFields rest
    have hopen : (Char.ofNat 123).utf8Size = 1 := rfl
    have hclose : (Char.ofNat 125).utf8Size = 1 := rfl
    have hcolon : (':' : Char).utf8Size = 1 := rfl
    simp only [render, size, byteLen_cons, byteLen_append, byteLen_nil]
    omega

theorem byteLen_renderItems : ∀ items : List Json, byteLen (renderItems items) = sizeItems items
  | [] => rfl
  | item :: rest => by
    have hitem := byteLen_render item
    have hrest := byteLen_renderItems rest
    have hcomma : (',' : Char).utf8Size = 1 := rfl
    simp only [renderItems, sizeItems, byteLen_cons, byteLen_append]
    omega

theorem byteLen_renderFields :
    ∀ fields : List (String × Json), byteLen (renderFields fields) = sizeFields fields
  | [] => rfl
  | (name, value) :: rest => by
    have hname := byteLen_quoted name
    have hvalue := byteLen_render value
    have hrest := byteLen_renderFields rest
    have hcomma : (',' : Char).utf8Size = 1 := rfl
    have hcolon : (':' : Char).utf8Size = 1 := rfl
    simp only [renderFields, sizeFields, byteLen_cons, byteLen_append]
    omega

end

theorem sum_le_size_array (items : List Json) : (items.map size).sum ≤ (array items).size := by
  have hrest : ∀ rest : List Json, (rest.map size).sum ≤ sizeItems rest := by
    intro rest
    induction rest with
    | nil => exact Nat.le_refl _
    | cons item rest ih =>
      simp only [List.map_cons, List.sum_cons, sizeItems]
      omega
  cases items with
  | nil => exact Nat.zero_le _
  | cons item rest =>
    have h := hrest rest
    simp only [List.map_cons, List.sum_cons, size]
    omega

theorem size_le_size_array {item : Json} {items : List Json} (h : item ∈ items) :
    item.size ≤ (array items).size :=
  (List.single_le_sum (fun _ _ ↦ Nat.zero_le _) _ (List.mem_map_of_mem h)).trans
    (sum_le_size_array items)

/-- The fields of an object are part of its text. -/
theorem size_le_size_object {name : String} {value : Json} {fields : List (String × Json)}
    (h : (name, value) ∈ fields) : value.size ≤ (object fields).size := by
  have hrest : ∀ rest : List (String × Json), (name, value) ∈ rest →
      value.size ≤ sizeFields rest := by
    intro rest hmem
    induction rest with
    | nil => cases hmem
    | cons field rest ih =>
      rcases List.mem_cons.mp hmem with rfl | hmem
      · simp only [sizeFields]
        omega
      · have h := ih hmem
        simp only [sizeFields]
        omega
  cases fields with
  | nil => cases h
  | cons field rest =>
    rcases List.mem_cons.mp h with rfl | h
    · simp only [size]
      omega
    · have h := hrest rest h
      simp only [size]
      omega

/-! ## Added fields -/

/-- A value with fields added to some of its objects, under names those objects do not use. -/
inductive Widens : Json → Json → Prop
  | same (value : Json) : Widens value value
  | array {items others : List Json} (h : List.Forall₂ Widens items others) :
      Widens (.array items) (.array others)
  | object {fields others : List (String × Json)} {values : List Json}
      (h : List.Forall₂ Widens (fields.map Prod.snd) values)
      (hkept : others.filter (fun field ↦ field.1 ∈ fields.map Prod.fst) =
        (fields.map Prod.fst).zip values) :
      Widens (.object fields) (.object others)

theorem forall₂_same (values : List Json) : List.Forall₂ Widens values values := by
  induction values with
  | nil => exact .nil
  | cons value rest ih => exact .cons (.same value) ih

/-- Fields that carry those of a record, in their order, and any others. -/
def Carries (own fields : List (String × Json)) : Prop :=
  ∃ values, List.Forall₂ Widens (own.map Prod.snd) values ∧
    fields.filter (fun field ↦ field.1 ∈ own.map Prod.fst) = (own.map Prod.fst).zip values

theorem Widens.object_inv {own : List (String × Json)} {other : Json}
    (h : Widens (.object own) other) : ∃ fields, other = .object fields ∧ Carries own fields := by
  cases h with
  | object h hkept => exact ⟨_, rfl, _, h, hkept⟩
  | same =>
    refine ⟨own, rfl, own.map Prod.snd, forall₂_same _, ?_⟩
    have hzip : (own.map Prod.fst).zip (own.map Prod.snd) = own := by
      induction own with
      | nil => rfl
      | cons field rest ih => exact congrArg (field :: ·) ih
    rw [hzip, List.filter_eq_self]
    intro field hfield
    exact decide_eq_true (List.mem_map_of_mem hfield)

/-- Without its first field a record is carried by the fields of other names. -/
theorem Carries.tail {name : String} {value : Json} {own fields : List (String × Json)}
    (h : Carries ((name, value) :: own) fields) (hname : name ∉ own.map Prod.fst) :
    Carries own (fields.filter (·.1 ≠ name)) := by
  obtain ⟨values, hvalues, hkept⟩ := h
  cases hvalues with
  | @cons _ first _ values _ hrest =>
    refine ⟨values, hrest, ?_⟩
    have hothers : ∀ field ∈ (own.map Prod.fst).zip values, field.1 ≠ name := by
      intro field hfield heq
      exact hname (heq ▸ (List.of_mem_zip (a := field.1) (b := field.2) hfield).1)
    calc (fields.filter (·.1 ≠ name)).filter (fun field ↦ field.1 ∈ own.map Prod.fst)
        = (fields.filter fun field ↦ field.1 ∈ name :: own.map Prod.fst).filter
            (·.1 ≠ name) := by
          rw [List.filter_filter, List.filter_filter]
          refine List.filter_congr fun field _ ↦ ?_
          by_cases heq : field.1 = name
          · simp [heq]
          · simp [heq]
      _ = ((name, first) :: (own.map Prod.fst).zip values).filter (·.1 ≠ name) :=
          congrArg _ hkept
      _ = (own.map Prod.fst).zip values := by
          rw [List.filter_cons_of_neg (by simp), List.filter_eq_self]
          intro field hfield
          exact decide_eq_true (hothers field hfield)

theorem Widens.array_inv {items : List Json} {other : Json} (h : Widens (.array items) other) :
    ∃ others, other = .array others ∧ List.Forall₂ Widens items others := by
  cases h with
  | array h => exact ⟨_, rfl, h⟩
  | same => exact ⟨items, rfl, forall₂_same items⟩

/-! ## Reading -/

section

variable {α β : Type}

/-- A field by its name. A field given twice is an error. -/
def readField (name : String) (read : Json → Option α) (missing : Option α)
    (fields : List (String × Json)) : Option α :=
  match fields.filter (·.1 = name) with
  | [] => missing
  | [field] => read field.2
  | _ => none

def readString : Json → Option String
  | string text => some text
  | _ => none

/-- A truth value. -/
def readBool : Json → Option Bool
  | bool value => some value
  | _ => none

/-- An unsigned integer of `w` bits. -/
def readUnsigned (w : Nat) : Json → Option {n : Nat // n < 2 ^ w}
  | number value => if h : value < 2 ^ w then some ⟨value, h⟩ else none
  | _ => none

/-- A value or `null`. -/
def readOption (read : Json → Option α) : Json → Option (Option α)
  | null => some none
  | value => (read value).map some

/-- An array of values. -/
def readList (read : Json → Option α) : Json → Option (List α)
  | array items => items.mapM read
  | _ => none

/-- A record from the fields of an object. -/
def readObject (read : List (String × Json) → Option α) : Json → Option α
  | object fields => read fields
  | _ => none

theorem filter_zip {name : String} {value : Json} :
    ∀ {names : List String} {values : List Json} (i : Nat), names.Nodup →
      names[i]? = some name → values[i]? = some value →
      (names.zip values).filter (fun field ↦ field.1 = name) = [(name, value)]
  | [], _, i, _, hname, _ => by simp at hname
  | _, [], i, _, _, hvalue => by simp at hvalue
  | first :: names, v :: values, 0, hnodup, hname, hvalue => by
    obtain rfl : first = name := by simpa using hname
    obtain rfl : v = value := by simpa using hvalue
    have hnone : (names.zip values).filter (fun field ↦ field.1 = first) = [] := by
      rw [List.filter_eq_nil_iff]
      intro field hfield heq
      have hmem : field.1 ∈ names := (List.of_mem_zip (a := field.1) (b := field.2) hfield).1
      exact (List.nodup_cons.mp hnodup).1 (of_decide_eq_true heq ▸ hmem)
    simp [hnone]
  | first :: names, v :: values, i + 1, hnodup, hname, hvalue => by
    have hname : names[i]? = some name := by simpa using hname
    have hvalue : values[i]? = some value := by simpa using hvalue
    have hne : first ≠ name := by
      intro heq
      exact (List.nodup_cons.mp hnodup).1 (heq ▸ List.mem_of_getElem? hname)
    rw [List.zip_cons_cons, List.filter_cons_of_neg (by simpa using hne)]
    exact filter_zip i (List.nodup_cons.mp hnodup).2 hname hvalue

/-- A reader that reads each value back, whatever fields it is given besides. -/
def ReadsBack (write : α → Json) (read : Json → Option α) : Prop :=
  ∀ value other, Widens (write value) other → read other = some value

/-- A reader finds each field of a record that is carried, and does not see the others. -/
theorem Carries.readField {own fields : List (String × Json)} {name : String} {write : α → Json}
    {read : Json → Option α} {missing : Option α} {value : α} (h : Carries own fields)
    (hnodup : (own.map Prod.fst).Nodup) (i : Nat) (hget : own[i]? = some (name, write value))
    (hread : ReadsBack write read) : Json.readField name read missing fields = some value := by
  obtain ⟨values, hvalues, hkept⟩ := h
  have hname : (own.map Prod.fst)[i]? = some name := by
    rw [List.getElem?_map, hget]
    rfl
  obtain ⟨other, hother, hwidens⟩ : ∃ other, values[i]? = some other ∧
      Widens (write value) other := by
    have hown : (own.map Prod.snd)[i]? = some (write value) := by
      rw [List.getElem?_map, hget]
      rfl
    obtain ⟨hi, hat⟩ := List.getElem?_eq_some_iff.mp hown
    have hi' : i < values.length := hvalues.length_eq ▸ hi
    refine ⟨values[i], List.getElem?_eq_getElem hi', ?_⟩
    rw [← hat]
    exact hvalues.get hi hi'
  have hfound : fields.filter (fun field ↦ field.1 = name) = [(name, other)] := by
    rw [← filter_zip i hnodup hname hother, ← hkept, List.filter_filter]
    refine List.filter_congr fun field _ ↦ ?_
    by_cases heq : field.1 = name
    · have hmem : name ∈ own.map Prod.fst := List.mem_of_getElem? hname
      simp [heq, hmem]
    · simp [heq]
  unfold Json.readField
  rw [hfound]
  exact hread value other hwidens

theorem Widens.atom {value other : Json} (h : Widens value other)
    (harray : ∀ items, value ≠ .array items) (hobject : ∀ fields, value ≠ .object fields) :
    other = value := by
  cases h with
  | same => rfl
  | array h => exact absurd rfl (harray _)
  | object => exact absurd rfl (hobject _)

theorem readsBack_string : ReadsBack string readString := by
  intro text other h
  rw [h.atom (fun _ h ↦ nomatch h) fun _ h ↦ nomatch h]
  rfl

theorem readsBack_bool : ReadsBack bool readBool := by
  intro value other h
  rw [h.atom (fun _ h ↦ nomatch h) fun _ h ↦ nomatch h]
  rfl

theorem readsBack_unsigned (w : Nat) :
    ReadsBack (fun n : {n : Nat // n < 2 ^ w} ↦ number n.val) (readUnsigned w) := by
  intro n other h
  rw [h.atom (fun _ h ↦ nomatch h) fun _ h ↦ nomatch h]
  exact dif_pos n.property

/-- A value or `null`. -/
def ofOption (write : α → Json) : Option α → Json
  | none => null
  | some value => write value

theorem readsBack_option {write : α → Json} {read : Json → Option α}
    (hread : ReadsBack write read) (hnull : ∀ value, ¬ Widens (write value) null) :
    ReadsBack (ofOption write) (readOption read) := by
  intro value other h
  cases value with
  | none =>
    rw [h.atom (fun _ h ↦ nomatch h) fun _ h ↦ nomatch h]
    rfl
  | some value =>
    have hvalue : read other = some value := hread value other h
    unfold readOption
    split
    · exact absurd h (hnull value)
    · rw [hvalue]
      rfl

theorem readsBack_list {write : α → Json} {read : Json → Option α}
    (hread : ReadsBack write read) :
    ReadsBack (fun values ↦ array (values.map write)) (readList read) := by
  intro values other h
  obtain ⟨others, rfl, hitems⟩ := h.array_inv
  clear h
  show others.mapM read = some values
  induction values generalizing others with
  | nil =>
    cases hitems
    rfl
  | cons value rest ih =>
    cases hitems with
    | cons hvalue hrest =>
      rw [List.mapM_cons, hread value _ hvalue, ih _ hrest]
      rfl

theorem readsBack_object {own : α → List (String × Json)}
    {read : List (String × Json) → Option α}
    (h : ∀ value fields, Carries (own value) fields → read fields = some value) :
    ReadsBack (fun value ↦ object (own value)) (readObject read) := by
  intro value other hother
  obtain ⟨fields, rfl, hcarries⟩ := hother.object_inv
  exact h value fields hcarries

end

end Json

end RunnerManager
