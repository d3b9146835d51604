import RunnerManager.Lib.Text

/-!
# Byte offsets into a text

A text is sliced at byte offsets, and an offset within a character is no boundary: `splitAt?` has
no answer there. A search answers with the offset of what it finds, so that its answer is always a
boundary: `splitAt?_append` is the one fact that the callers need.
-/

namespace RunnerManager.Text

/-- Split at a byte offset, where it is a boundary. -/
def splitAt? : Nat → List Char → Option (List Char × List Char)
  | 0, text => some ([], text)
  | _ + 1, [] => none
  | n + 1, c :: rest =>
    if c.utf8Size ≤ n + 1 then
      (splitAt? (n + 1 - c.utf8Size) rest).map fun parts ↦ (c :: parts.1, parts.2)
    else none

/-- The offset of the first character of a kind. -/
def findBy (p : Char → Bool) : List Char → Option Nat
  | [] => none
  | c :: rest => if p c then some 0 else (findBy p rest).map (· + c.utf8Size)

/-- The offset of the first occurrence of a pattern. -/
def findText (pattern : List Char) : List Char → Option Nat
  | [] => if pattern.isEmpty then some 0 else none
  | c :: rest =>
    if pattern.isPrefixOf (c :: rest) then some 0
    else (findText pattern rest).map (· + c.utf8Size)

/-- The text around the first separator. -/
def splitOnce (separator : Char) : List Char → Option (List Char × List Char)
  | [] => none
  | c :: rest =>
    if c = separator then some ([], rest)
    else (splitOnce separator rest).map fun parts ↦ (c :: parts.1, parts.2)

/-- `split_inclusive`: a piece ends with its separator, and no piece is empty. -/
def splitInclusiveBy (p : Char → Bool) : List Char → List (List Char)
  | [] => []
  | c :: rest =>
    if p c then [c] :: splitInclusiveBy p rest
    else
      match splitInclusiveBy p rest with
      | [] => [[c]]
      | piece :: pieces => (c :: piece) :: pieces

variable {p : Char → Bool} {text before after pattern : List Char} {c : Char}

@[simp]
theorem byteLen_nil : byteLen [] = 0 := rfl

@[simp]
theorem byteLen_cons (c : Char) (text : List Char) :
    byteLen (c :: text) = c.utf8Size + byteLen text := by
  simp [byteLen]

@[simp]
theorem byteLen_append (before after : List Char) :
    byteLen (before ++ after) = byteLen before + byteLen after := by
  simp [byteLen]

/-- The end of any first part is a boundary. -/
@[simp]
theorem splitAt?_append (before after : List Char) :
    splitAt? (byteLen before) (before ++ after) = some (before, after) := by
  induction before with
  | nil => cases after <;> rfl
  | cons c before ih =>
    have hpos := c.utf8Size_pos
    obtain ⟨n, hn⟩ := Nat.exists_eq_add_of_lt (Nat.add_pos_left hpos (byteLen before))
    rw [byteLen_cons, List.cons_append, show c.utf8Size + byteLen before = n + 1 by omega,
      splitAt?, if_pos (by omega), show n + 1 - c.utf8Size = byteLen before by omega, ih]
    rfl

theorem findBy_eq_some {n : Nat} (h : findBy p text = some n) :
    ∃ before c after, text = before ++ c :: after ∧ n = byteLen before ∧ p c = true ∧
      ∀ x ∈ before, p x = false := by
  induction text generalizing n with
  | nil => cases h
  | cons c rest ih =>
    rw [findBy] at h
    split at h
    case isTrue hc =>
      obtain rfl := Option.some.inj h
      exact ⟨[], c, rest, rfl, rfl, hc, fun x hx ↦ nomatch hx⟩
    case isFalse hc =>
      obtain ⟨m, hm, rfl⟩ := Option.map_eq_some_iff.mp h
      obtain ⟨before, d, after, rfl, rfl, hd, hbefore⟩ := ih hm
      refine ⟨c :: before, d, after, rfl, ?_, hd, ?_⟩
      · rw [byteLen_cons, Nat.add_comm]
      · intro x hx
        obtain rfl | hx := List.mem_cons.mp hx
        · exact Bool.eq_false_iff.mpr hc
        · exact hbefore x hx

theorem findBy_eq_none : findBy p text = none ↔ ∀ c ∈ text, p c = false := by
  induction text with
  | nil => simp [findBy]
  | cons c rest ih =>
    rw [findBy]
    split
    case isTrue hc => simp [hc]
    case isFalse hc => simp [ih, Bool.eq_false_iff.mpr hc]

theorem findBy_append (hbefore : ∀ x ∈ before, p x = false) (hc : p c = true) :
    findBy p (before ++ c :: after) = some (byteLen before) := by
  induction before with
  | nil => simp [findBy, hc]
  | cons d before ih =>
    rw [List.cons_append, findBy, if_neg (by simp [hbefore d List.mem_cons_self]),
      ih fun x hx ↦ hbefore x (List.mem_cons_of_mem _ hx), Option.map_some, byteLen_cons,
      Nat.add_comm]

theorem findBy_getD (p : Char → Bool) (text : List Char) (n : Nat) :
    (findBy p text).getD n =
      if text.any p then byteLen (text.takeWhile fun c ↦ !p c) else n := by
  cases hfind : findBy p text with
  | none =>
    rw [findBy_eq_none] at hfind
    rw [if_neg (by simpa using hfind)]
    rfl
  | some m =>
    obtain ⟨before, c, after, rfl, rfl, hc, hbefore⟩ := findBy_eq_some hfind
    rw [if_pos (by simp [hc]), List.takeWhile_append_of_pos fun x hx ↦ by rw [hbefore x hx]; rfl]
    simp [hc]

theorem findBy_getD_length (p : Char → Bool) (text : List Char) :
    (findBy p text).getD (byteLen text) = byteLen (text.takeWhile fun c ↦ !p c) := by
  rw [findBy_getD]
  split
  case isTrue => rfl
  case isFalse hnone =>
    rw [List.takeWhile_eq_self_iff.mpr fun c hc ↦ ?_]
    simp only [List.any_eq_true, not_exists, not_and, Bool.not_eq_true] at hnone
    simp [hnone c hc]

theorem splitAt?_takeWhile (p : Char → Bool) (text : List Char) :
    splitAt? (byteLen (text.takeWhile p)) text = some (text.takeWhile p, text.dropWhile p) := by
  have h := splitAt?_append (text.takeWhile p) (text.dropWhile p)
  rwa [List.takeWhile_append_dropWhile] at h

/-- A search for a pattern ends at its first occurrence. -/
theorem findText_eq_some {n : Nat} (h : findText pattern text = some n) :
    ∃ before after, text = before ++ pattern ++ after ∧ n = byteLen before ∧
      ∀ x y, text = x ++ pattern ++ y → before.length ≤ x.length := by
  induction text generalizing n with
  | nil =>
    rw [findText] at h
    split at h
    case isTrue hnil =>
      obtain rfl := List.isEmpty_iff.mp hnil
      obtain rfl := Option.some.inj h
      exact ⟨[], [], rfl, rfl, fun x y _ ↦ Nat.zero_le _⟩
    case isFalse => cases h
  | cons c rest ih =>
    rw [findText] at h
    split at h
    case isTrue hhere =>
      obtain rfl := Option.some.inj h
      obtain ⟨after, hafter⟩ := List.isPrefixOf_iff_prefix.mp hhere
      exact ⟨[], after, hafter.symm, rfl, fun x y _ ↦ Nat.zero_le _⟩
    case isFalse hhere =>
      obtain ⟨m, hm, rfl⟩ := Option.map_eq_some_iff.mp h
      obtain ⟨before, after, rfl, rfl, hfirst⟩ := ih hm
      refine ⟨c :: before, after, rfl, by rw [byteLen_cons, Nat.add_comm], fun x y hxy ↦ ?_⟩
      cases x with
      | nil =>
        refine absurd (List.isPrefixOf_iff_prefix.mpr ⟨y, ?_⟩) hhere
        exact hxy.symm
      | cons d x =>
        have hrest := (List.cons.inj hxy).2
        exact Nat.succ_le_succ (hfirst x y hrest)

/-- An occurrence that none comes before is the one that is found. -/
theorem findText_append
    (hfirst : ∀ x y, before ++ pattern ++ after = x ++ pattern ++ y → before.length ≤ x.length) :
    findText pattern (before ++ pattern ++ after) = some (byteLen before) := by
  induction before with
  | nil =>
    cases htext : pattern ++ after with
    | nil =>
      obtain ⟨rfl, rfl⟩ := List.append_eq_nil_iff.mp htext
      rfl
    | cons c rest =>
      have hprefix : pattern.isPrefixOf (c :: rest) = true :=
        List.isPrefixOf_iff_prefix.mpr ⟨after, htext⟩
      rw [List.nil_append, htext, findText, if_pos hprefix]
      rfl
  | cons c before ih =>
    have hnot : ¬ pattern.isPrefixOf (c :: (before ++ pattern ++ after)) = true := by
      intro hhere
      obtain ⟨rest, hrest⟩ := List.isPrefixOf_iff_prefix.mp hhere
      exact absurd (hfirst [] rest hrest.symm) (by simp)
    show findText pattern (c :: (before ++ pattern ++ after)) = _
    rw [findText, if_neg hnot, ih fun x y hxy ↦ ?_, Option.map_some, byteLen_cons, Nat.add_comm]
    have hlength := hfirst (c :: x) y (congrArg (c :: ·) hxy)
    simpa using hlength

theorem findText_eq_none (hpattern : pattern ≠ []) :
    findText pattern text = none ↔ ¬ pattern <:+: text := by
  induction text with
  | nil =>
    rw [findText, if_neg (by simpa using hpattern)]
    simpa using hpattern
  | cons c rest ih =>
    rw [findText, List.infix_cons_iff, ← List.isPrefixOf_iff_prefix]
    split
    case isTrue hhere => simp [hhere]
    case isFalse hhere => simp [hhere, ih]

/-- The first part of a cut holds no separator. -/
theorem splitOnce_eq_some {first second : List Char} :
    splitOnce c text = some (first, second) ↔ text = first ++ c :: second ∧ c ∉ first := by
  induction text generalizing first with
  | nil => simp [splitOnce]
  | cons d rest ih =>
    rw [splitOnce]
    split
    case isTrue hd =>
      subst hd
      constructor
      · intro h
        obtain ⟨rfl, rfl⟩ := Prod.mk.inj (Option.some.inj h)
        exact ⟨rfl, List.not_mem_nil⟩
      · rintro ⟨htext, hnot⟩
        cases first with
        | nil => simpa using htext
        | cons e first =>
          rw [List.cons_append, List.cons.injEq] at htext
          exact absurd (htext.1 ▸ List.mem_cons_self) hnot
    case isFalse hd =>
      constructor
      · intro h
        obtain ⟨⟨x, y⟩, hxy, heq⟩ := Option.map_eq_some_iff.mp h
        obtain ⟨rfl, rfl⟩ := Prod.mk.inj heq
        obtain ⟨rfl, hnot⟩ := ih.mp hxy
        refine ⟨rfl, fun hmem ↦ ?_⟩
        obtain rfl | hmem := List.mem_cons.mp hmem
        · exact hd rfl
        · exact hnot hmem
      · rintro ⟨htext, hnot⟩
        cases first with
        | nil =>
          rw [List.nil_append, List.cons.injEq] at htext
          exact absurd htext.1 hd
        | cons e first =>
          rw [List.cons_append, List.cons.injEq] at htext
          obtain ⟨rfl, hrest⟩ := htext
          rw [ih.mpr ⟨hrest, fun hmem ↦ hnot (List.mem_cons_of_mem _ hmem)⟩]
          rfl

end RunnerManager.Text
