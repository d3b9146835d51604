import Mathlib.Data.List.DropRight
import Mathlib.Data.List.TakeWhile
import Mathlib.Algebra.Group.Int.Defs
import Mathlib.Algebra.GroupWithZero.Nat

/-!
# Text operations

The string operations the validators use, on Lean strings seen as lists of characters:
trimming, ASCII case folding, searching and splitting. Read `trim_foldAscii` first: folding
a trimmed text keeps it trimmed, so a validator that trims and folds accepts its own output.
-/

namespace RunnerManager.Text

/-- The Unicode `White_Space` property. -/
def isWhitespace (c : Char) : Bool :=
  let n := c.toNat
  (0x9 ≤ n && n ≤ 0xD) || n == 0x20 || n == 0x85 || n == 0xA0 || n == 0x1680
    || (0x2000 ≤ n && n ≤ 0x200A) || n == 0x2028 || n == 0x2029 || n == 0x202F
    || n == 0x205F || n == 0x3000

/-- The Unicode general category `Cc`. -/
def isControl (c : Char) : Bool :=
  c.toNat < 0x20 || (0x7F ≤ c.toNat && c.toNat ≤ 0x9F)

def isAsciiAlphanumeric (c : Char) : Bool :=
  ('0' ≤ c && c ≤ '9') || ('a' ≤ c && c ≤ 'z') || ('A' ≤ c && c ≤ 'Z')

/-- ASCII hexadecimal digits of either case. -/
def isAsciiHexdigit (c : Char) : Bool :=
  ('0' ≤ c && c ≤ '9') || ('a' ≤ c && c ≤ 'f') || ('A' ≤ c && c ≤ 'F')

/-- The number of bytes of the UTF-8 encoding. -/
def byteLen (cs : List Char) : Nat :=
  (cs.map Char.utf8Size).sum

/-- Remove leading and trailing whitespace. -/
def trim (cs : List Char) : List Char :=
  (cs.dropWhile isWhitespace).rdropWhile isWhitespace

/-- Replace the ASCII capitals, and nothing else. -/
def foldAscii (cs : List Char) : List Char :=
  cs.map Char.toLower

def eqIgnoreAsciiCase (a b : String) : Bool :=
  foldAscii a.toList == foldAscii b.toList

/-- `needle` occurs in `cs`. -/
def contains (needle cs : List Char) : Bool :=
  cs.tails.any needle.isPrefixOf

/-- Split around the last occurrence of `separator`. -/
def rsplitOnce (separator : List Char) : List Char → Option (List Char × List Char)
  | [] => none
  | c :: cs =>
    match rsplitOnce separator cs with
    | some (before, after) => some (c :: before, after)
    | none =>
      match List.dropPrefix? (c :: cs) separator with
      | some after => some ([], after)
      | none => none

/-- A claim about the characters of a text is decided along the text, not over all characters. -/
instance (priority := high) decidableForallMem {p : Char → Prop} [DecidablePred p]
    (cs : List Char) : Decidable (∀ c ∈ cs, p c) :=
  List.decidableBAll p cs

/-! ## Trimming and folding -/

theorem ascii_induction {P : Char → Prop} (hascii : ∀ n < 128, P (Char.ofNat n)) {c : Char}
    (hc : c.toNat < 128) : P c := by
  have h := hascii c.toNat hc
  rwa [Char.ofNat_toNat] at h

theorem alphanumeric_ascii {c : Char} (h : isAsciiAlphanumeric c = true) : c.toNat < 128 := by
  have hval : c.toNat = c.val.toNat := rfl
  have hbounds : '9'.val.toNat = 57 ∧ 'z'.val.toNat = 122 ∧ 'Z'.val.toNat = 90 :=
    ⟨rfl, rfl, rfl⟩
  simp only [isAsciiAlphanumeric, Bool.or_eq_true, Bool.and_eq_true, decide_eq_true_eq,
    Char.le_def, UInt32.le_iff_toNat_le] at h
  omega

theorem hexdigit_ascii {c : Char} (h : isAsciiHexdigit c = true) : c.toNat < 128 := by
  have hval : c.toNat = c.val.toNat := rfl
  have hbounds : '9'.val.toNat = 57 ∧ 'f'.val.toNat = 102 ∧ 'F'.val.toNat = 70 :=
    ⟨rfl, rfl, rfl⟩
  simp only [isAsciiHexdigit, Bool.or_eq_true, Bool.and_eq_true, decide_eq_true_eq, Char.le_def,
    UInt32.le_iff_toNat_le] at h
  omega

theorem toLower_eq_self {c : Char} (hc : ¬ c.toNat < 128) : c.toLower = c := by
  have hval : 128 ≤ c.val.toNat := by
    have : c.toNat = c.val.toNat := rfl
    omega
  unfold Char.toLower
  split
  · next h =>
    have hhigh : c.val.toNat ≤ 90 := UInt32.le_iff_toNat_le.mp h.2
    omega
  · rfl

@[simp]
theorem isWhitespace_toLower (c : Char) : isWhitespace c.toLower = isWhitespace c := by
  by_cases hc : c.toNat < 128
  · exact ascii_induction (P := fun c ↦ isWhitespace c.toLower = isWhitespace c)
      (by decide) hc
  · rw [toLower_eq_self hc]

@[simp]
theorem toLower_toLower (c : Char) : c.toLower.toLower = c.toLower := by
  by_cases hc : c.toNat < 128
  · exact ascii_induction (P := fun c ↦ c.toLower.toLower = c.toLower) (by decide) hc
  · rw [toLower_eq_self hc, toLower_eq_self hc]

@[simp]
theorem foldAscii_foldAscii (cs : List Char) : foldAscii (foldAscii cs) = foldAscii cs := by
  simp [foldAscii]

@[simp]
theorem length_foldAscii (cs : List Char) : (foldAscii cs).length = cs.length := by
  simp [foldAscii]

@[simp]
theorem trim_foldAscii (cs : List Char) : trim (foldAscii cs) = foldAscii (trim cs) := by
  have hfold : isWhitespace ∘ Char.toLower = isWhitespace := by
    funext c
    exact isWhitespace_toLower c
  simp only [trim, foldAscii, List.rdropWhile, List.dropWhile_map, ← List.map_reverse, hfold]

@[simp]
theorem trim_trim (cs : List Char) : trim (trim cs) = trim cs := by
  have hfront := List.rdropWhile_prefix isWhitespace (cs.dropWhile isWhitespace)
  have hstart : (trim cs).dropWhile isWhitespace = trim cs := by
    rw [List.dropWhile_eq_self_iff]
    intro hlength
    have hhead := List.dropWhile_get_zero_not isWhitespace cs
      (hlength.trans_le hfront.length_le)
    rw [List.get_eq_getElem, ← hfront.getElem hlength] at hhead
    exact hhead
  conv_lhs => rw [trim, hstart]
  exact List.rdropWhile_idempotent _ _

theorem trim_eq_nil_iff {cs : List Char} : trim cs = [] ↔ ∀ c ∈ cs, isWhitespace c = true := by
  rw [trim, List.rdropWhile_eq_nil_iff]
  constructor
  · intro h
    induction cs with
    | nil => simp
    | cons c cs ih =>
      by_cases hc : isWhitespace c = true
      · rw [List.dropWhile_cons_of_pos hc] at h
        simpa [hc] using ih h
      · rw [List.dropWhile_cons_of_neg hc] at h
        exact h
  · exact fun h c hc ↦ h c (List.dropWhile_subset _ hc)

theorem trim_eq_self {cs : List Char} (h : ∀ c ∈ cs, isWhitespace c = false) : trim cs = cs := by
  have hdrop : cs.dropWhile isWhitespace = cs := by
    rw [List.dropWhile_eq_self_iff]
    intro hlength
    simp [h _ (List.getElem_mem hlength)]
  rw [trim, hdrop, List.rdropWhile_eq_self_iff]
  intro hne
  simp [h _ (List.getLast_mem hne)]

theorem trim_padded {before cs after : List Char}
    (hbefore : ∀ c ∈ before, isWhitespace c = true) (hcs : ∀ c ∈ cs, isWhitespace c = false)
    (hafter : ∀ c ∈ after, isWhitespace c = true) : trim (before ++ (cs ++ after)) = cs := by
  rw [trim, List.dropWhile_append_of_pos hbefore]
  cases cs with
  | nil =>
    rw [List.nil_append, List.dropWhile_eq_nil_iff.mpr hafter]
    rfl
  | cons c cs =>
    have hfirst : (c :: cs ++ after).dropWhile isWhitespace = c :: cs ++ after := by
      rw [List.cons_append, List.dropWhile_cons_of_neg (by simp [hcs c])]
    have hlast : (c :: cs).reverse.dropWhile isWhitespace = (c :: cs).reverse := by
      rw [List.dropWhile_eq_self_iff]
      intro hlength
      rw [hcs _ (List.mem_reverse.mp (List.getElem_mem hlength))]
      exact Bool.false_ne_true
    rw [hfirst, List.rdropWhile, List.reverse_append,
      List.dropWhile_append_of_pos (fun c hc ↦ hafter c (List.mem_reverse.mp hc)), hlast,
      List.reverse_reverse]

/-! ## Splitting -/

section Split

variable {α : Type*} {p : α → Bool}

theorem splitOnP_parts (xs : List α) : ∀ part ∈ xs.splitOnP p, ∀ x ∈ part, p x = false := by
  induction xs with
  | nil => simp
  | cons x xs ih =>
    rw [List.splitOnP_cons_eq_if_modifyHead]
    split
    · simpa using ih
    · next hx =>
      cases hparts : xs.splitOnP p with
      | nil => exact absurd hparts (List.splitOnP_ne_nil p xs)
      | cons first rest =>
        rw [hparts] at ih
        simp only [List.mem_cons, forall_eq_or_imp, List.modifyHead_cons] at ih ⊢
        exact ⟨⟨by simpa using hx, ih.1⟩, ih.2⟩

theorem splitOnP_intercalate {separator : α} (hseparator : p separator = true)
    {parts : List (List α)} (hparts : parts ≠ [])
    (hfree : ∀ part ∈ parts, ∀ x ∈ part, p x = false) :
    ([separator].intercalate parts).splitOnP p = parts := by
  induction parts with
  | nil => exact absurd rfl hparts
  | cons first rest ih =>
    have hfirst := hfree first (by simp)
    cases rest with
    | nil => simpa using List.splitOnP_eq_singleton hfirst
    | cons second rest =>
      have hrest : ∀ part ∈ second :: rest, ∀ x ∈ part, p x = false :=
        fun part hpart ↦ hfree part (List.mem_cons_of_mem _ hpart)
      rw [List.intercalate_cons_cons, List.append_assoc, List.singleton_append,
        List.splitOnP_append_cons_of_forall_mem hfirst separator hseparator,
        ih (by simp) hrest]

/-- The first of several parts is what stands before the first separator. -/
theorem exists_of_splitOnP_cons {xs front : List α} {tail : List (List α)}
    (h : xs.splitOnP p = front :: tail) (htail : tail ≠ []) :
    ∃ separator rest, p separator = true ∧ xs = front ++ separator :: rest ∧
      rest.splitOnP p = tail := by
  induction xs generalizing front with
  | nil =>
    rw [List.splitOnP_nil, List.cons.injEq] at h
    exact absurd h.2.symm htail
  | cons x xs ih =>
    rw [List.splitOnP_cons_eq_if_modifyHead] at h
    split at h
    · next hx =>
      obtain ⟨rfl, rfl⟩ := List.cons.inj h
      exact ⟨x, xs, hx, rfl, rfl⟩
    · cases hparts : xs.splitOnP p with
      | nil => exact absurd hparts (List.splitOnP_ne_nil p xs)
      | cons first rest =>
        rw [hparts, List.modifyHead_cons, List.cons.injEq] at h
        obtain ⟨rfl, rfl⟩ := h
        obtain ⟨separator, after, hseparator, rfl, hafter⟩ := ih hparts
        exact ⟨separator, after, hseparator, rfl, hafter⟩

theorem intercalate_concat {separator : α} {parts : List (List α)} (hparts : parts ≠ [])
    (part : List α) : [separator].intercalate (parts ++ [part]) =
      [separator].intercalate parts ++ separator :: part := by
  induction parts with
  | nil => exact absurd rfl hparts
  | cons first rest ih =>
    cases rest with
    | nil => simp [List.intercalate_cons_cons]
    | cons second rest =>
      have hrest := ih (List.cons_ne_nil second rest)
      rw [List.cons_append, List.cons_append, List.intercalate_cons_cons,
        ← List.cons_append, hrest, List.intercalate_cons_cons]
      simp

theorem mem_intercalate {separator x : α} {parts : List (List α)}
    (h : x ∈ [separator].intercalate parts) : x = separator ∨ ∃ part ∈ parts, x ∈ part := by
  induction parts with
  | nil => simp at h
  | cons first rest ih =>
    cases rest with
    | nil => exact .inr ⟨first, by simp, by simpa using h⟩
    | cons second rest =>
      rw [List.intercalate_cons_cons, List.mem_append, List.mem_append] at h
      obtain (h | h) | h := h
      · exact .inr ⟨first, by simp, h⟩
      · exact .inl (by simpa using h)
      · obtain h | ⟨part, hpart, hx⟩ := ih h
        · exact .inl h
        · exact .inr ⟨part, List.mem_cons_of_mem _ hpart, hx⟩

end Split

/-! ## Validated texts -/

/-- A text its own validator returns unchanged. -/
structure Canonical {ε : Type} (check : List Char → Except ε (List Char)) where
  text : String
  canonical : check text.toList = .ok text.toList

namespace Canonical

variable {ε : Type} {check : List Char → Except ε (List Char)}

@[ext]
theorem ext {a b : Canonical check} (htext : a.text = b.text) : a = b := by
  cases a
  cases b
  simp_all

instance : DecidableEq (Canonical check) := fun a b ↦
  decidable_of_iff (a.text = b.text) ⟨ext, fun h ↦ by rw [h]⟩

/-- Run a validator that accepts its own output. -/
def new (hidem : ∀ {raw text}, check raw = .ok text → check text = .ok text) (raw : String) :
    Except ε (Canonical check) :=
  match h : check raw.toList with
  | .error e => .error e
  | .ok text => .ok ⟨String.ofList text, by simpa using hidem h⟩

@[simp]
theorem new_text (hidem : ∀ {raw text}, check raw = .ok text → check text = .ok text)
    (value : Canonical check) : new hidem value.text = .ok value := by
  rw [new]
  split
  · next e h => simp [value.canonical] at h
  · next text h =>
    rw [value.canonical] at h
    cases h
    simp

end Canonical

end RunnerManager.Text
