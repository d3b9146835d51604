import Mathlib.Data.List.Infix

/-!
# Lines

A text as its lines, the way a reader takes them: a line ends at a newline, and a carriage return
right before the newline belongs to the line end. Read `line_induction` first: a text is empty,
or one line without an end, or a line, its end and a text. `lines_unlines` reads back what was
written, and `stripped_iff` says for which texts removing one more carriage return leaves none.
-/

namespace RunnerManager.Lines

/-- A carriage return at the end is removed. -/
def stripReturn (line : List Char) : List Char :=
  if line.getLast? = some '\r' then line.dropLast else line

/-- The pieces of a text, each with the newline that ends it. -/
def splitInclusive : List Char → List (List Char)
  | [] => []
  | c :: text =>
    if c = '\n' then ['\n'] :: splitInclusive text
    else
      match splitInclusive text with
      | [] => [[c]]
      | first :: rest => (c :: first) :: rest

def stripEnd (piece : List Char) : List Char :=
  if piece.getLast? = some '\n' then stripReturn piece.dropLast else piece

def lines (text : List Char) : List (List Char) :=
  (splitInclusive text).map stripEnd

/-- A text of lines, each with its newline. -/
def unlines (parts : List (List Char)) : List Char :=
  parts.flatMap (· ++ ['\n'])

variable {line rest text : List Char}

/-! ## Reading lines -/

/-- A text is empty, or one line, or a line before another text. -/
theorem line_induction {P : List Char → Prop} (empty : P [])
    (last : ∀ line, line ≠ [] → '\n' ∉ line → P line)
    (cons : ∀ line rest, '\n' ∉ line → P rest → P (line ++ '\n' :: rest)) (text : List Char) :
    P text := by
  by_cases h : '\n' ∈ text
  · obtain ⟨line, rest, rfl, hline⟩ := List.eq_append_cons_of_mem h
    exact cons line rest hline (line_induction empty last cons rest)
  · by_cases hnil : text = []
    · exact hnil ▸ empty
    · exact last text hnil h
termination_by text.length
decreasing_by simp_all; omega

theorem splitInclusive_last (hnil : line ≠ []) (h : '\n' ∉ line) :
    splitInclusive line = [line] := by
  induction line with
  | nil => exact absurd rfl hnil
  | cons c line ih =>
    simp only [List.mem_cons, not_or] at h
    rw [splitInclusive, if_neg (Ne.symm h.1)]
    by_cases hrest : line = []
    · rw [hrest]
      rfl
    · rw [ih hrest h.2]

theorem splitInclusive_append (h : '\n' ∉ line) :
    splitInclusive (line ++ '\n' :: rest) = (line ++ ['\n']) :: splitInclusive rest := by
  induction line with
  | nil => simp [splitInclusive]
  | cons c line ih =>
    simp only [List.mem_cons, not_or] at h
    rw [List.cons_append, splitInclusive, if_neg (Ne.symm h.1), ih h.2]
    rfl

@[simp]
theorem lines_nil : lines [] = [] := rfl

theorem lines_last (hnil : line ≠ []) (h : '\n' ∉ line) : lines line = [line] := by
  have hend : line.getLast? ≠ some '\n' := fun hlast ↦ h (List.mem_of_getLast? hlast)
  rw [lines, splitInclusive_last hnil h, List.map_singleton, stripEnd, if_neg hend]

theorem lines_append (h : '\n' ∉ line) :
    lines (line ++ '\n' :: rest) = stripReturn line :: lines rest := by
  rw [lines, splitInclusive_append h, List.map_cons, stripEnd, List.getLast?_concat, if_pos rfl,
    List.dropLast_concat, lines]

theorem stripReturn_subset {c : Char} (h : c ∈ stripReturn line) : c ∈ line := by
  unfold stripReturn at h
  split_ifs at h
  · exact List.mem_of_mem_dropLast h
  · exact h

theorem length_stripReturn_le (line : List Char) : (stripReturn line).length ≤ line.length := by
  unfold stripReturn
  split_ifs <;> simp

theorem stripReturn_self (h : line.getLast? ≠ some '\r') : stripReturn line = line :=
  if_neg h

theorem getLast?_of_length_le (h : line.length ≤ (stripReturn line).length) :
    line.getLast? ≠ some '\r' := by
  intro hlast
  rw [stripReturn, if_pos hlast, List.length_dropLast] at h
  have hpos := List.length_pos_of_mem (List.mem_of_getLast? hlast)
  omega

theorem newline_notMem {part : List Char} (h : part ∈ lines text) : '\n' ∉ part := by
  induction text using line_induction with
  | empty => exact absurd h List.not_mem_nil
  | last line hnil hline =>
    rw [lines_last hnil hline, List.mem_singleton] at h
    exact h ▸ hline
  | cons line rest hline ih =>
    rw [lines_append hline, List.mem_cons] at h
    obtain rfl | h := h
    · exact fun hmem ↦ hline (stripReturn_subset hmem)
    · exact ih h

theorem lines_unlines {parts : List (List Char)} (h : ∀ part ∈ parts, '\n' ∉ part) :
    lines (unlines parts) = parts.map stripReturn := by
  induction parts with
  | nil => rfl
  | cons part parts ih =>
    simp only [List.mem_cons, forall_eq_or_imp] at h
    rw [unlines, List.flatMap_cons, List.append_assoc, List.singleton_append,
      lines_append h.1, List.map_cons, ← ih h.2, unlines]

/-! ## Carriage returns that stay -/

theorem suffix_append_newline (line rest : List Char) {pattern : List Char}
    (h : '\n' ∉ pattern) :
    pattern <:+ line ++ '\n' :: rest ↔ pattern <:+ rest := by
  constructor
  · intro hsuffix
    obtain hshort | hlong :=
      List.suffix_or_suffix_of_suffix hsuffix (List.suffix_append line ('\n' :: rest))
    · obtain hsame | hrest := List.suffix_cons_iff.mp hshort
      · exact absurd (hsame ▸ List.mem_cons_self) h
      · exact hrest
    · exact absurd (hlong.subset List.mem_cons_self) h
  · intro hsuffix
    exact hsuffix.trans ((List.suffix_cons '\n' rest).trans (List.suffix_append line _))

theorem infix_append_newline (rest : List Char) {pattern : List Char}
    (hpattern : '\n' ∉ pattern) (hline : '\n' ∉ line) :
    pattern ++ ['\n'] <:+: line ++ '\n' :: rest ↔
      pattern <:+ line ∨ pattern ++ ['\n'] <:+: rest := by
  constructor
  · rintro ⟨before, after, hsame⟩
    have hcut : (before ++ pattern) ++ '\n' :: after = line ++ '\n' :: rest := by
      rw [← hsame]
      simp
    obtain ⟨middle, hmiddle, htail⟩ | ⟨middle, hmiddle, htail⟩ :=
      List.append_eq_append_iff.mp hcut
    · -- the newline of the pattern is the one that ends the line, or before it
      cases middle with
      | nil => exact .inl ⟨before, by simpa using hmiddle.symm⟩
      | cons c middle =>
        obtain ⟨rfl, -⟩ := List.cons.inj htail
        exact absurd (by simp [hmiddle]) hline
    · cases middle with
      | nil => exact .inl ⟨before, by simpa using hmiddle⟩
      | cons c middle =>
        obtain ⟨rfl, hrest⟩ := List.cons.inj htail
        have hsuffix : pattern <:+ middle :=
          (suffix_append_newline line middle hpattern).mp ⟨before, hmiddle⟩
        obtain ⟨front, rfl⟩ := hsuffix
        exact .inr ⟨front, after, by rw [hrest]; simp⟩
  · rintro (⟨before, rfl⟩ | hinside)
    · exact ⟨before, rest, by simp⟩
    · exact hinside.trans
        ((List.infix_cons (List.infix_refl rest)).trans (List.suffix_append line _).isInfix)

theorem returns_suffix_stripReturn {n : ℕ} :
    List.replicate (n + 1) '\r' <:+ stripReturn line ↔ List.replicate (n + 2) '\r' <:+ line := by
  have hrun (count : ℕ) : List.replicate (count + 1) '\r' = List.replicate count '\r' ++ ['\r'] :=
    List.replicate_succ'
  constructor
  · intro h
    by_cases hlast : line.getLast? = some '\r'
    · obtain ⟨front, rfl⟩ := List.getLast?_eq_some_iff.mp hlast
      rw [stripReturn, if_pos hlast, List.dropLast_concat] at h
      rw [hrun (n + 1)]
      exact List.suffix_concat_iff.mpr (.inr ⟨_, rfl, h⟩)
    · -- without a carriage return at its end the line is kept, and has no such run
      rw [stripReturn_self hlast, hrun] at h
      obtain ⟨front, rfl⟩ := h
      exact absurd (by rw [← List.append_assoc, List.getLast?_concat]) hlast
  · rintro ⟨front, rfl⟩
    rw [hrun (n + 1), ← List.append_assoc, stripReturn, List.getLast?_concat, if_pos rfl,
      List.dropLast_concat]
    exact List.suffix_append front _

theorem getLast?_eq_some_iff_suffix {c : Char} : line.getLast? = some c ↔ [c] <:+ line := by
  rw [List.getLast?_eq_some_iff]
  exact exists_congr fun front ↦ eq_comm

/-- One more removal leaves no carriage return at the end of a line, for these texts. -/
theorem stripped_iff :
    (∀ part ∈ lines text, (stripReturn part).getLast? ≠ some '\r') ↔
      ¬ ['\r', '\r', '\r', '\n'] <:+: text ∧ ¬ ['\r', '\r'] <:+ text := by
  have hone (line : List Char) :
      (stripReturn line).getLast? = some '\r' ↔ ['\r', '\r'] <:+ line :=
    getLast?_eq_some_iff_suffix.trans (returns_suffix_stripReturn (n := 0))
  have htwo (line : List Char) :
      (stripReturn (stripReturn line)).getLast? = some '\r' ↔ ['\r', '\r', '\r'] <:+ line :=
    (hone _).trans (returns_suffix_stripReturn (n := 1))
  induction text using line_induction with
  | empty => simp
  | last line hnil hline =>
    have hinside : ¬ ['\r', '\r', '\r', '\n'] <:+: line := fun h ↦ hline (h.subset (by simp))
    simp only [lines_last hnil hline, List.mem_singleton, forall_eq, ne_eq, hone]
    exact ⟨fun h ↦ ⟨hinside, h⟩, fun h ↦ h.2⟩
  | cons line rest hline ih =>
    have hsuffix := suffix_append_newline line rest (by decide : '\n' ∉ ['\r', '\r'])
    have hinside := infix_append_newline rest (by decide : '\n' ∉ ['\r', '\r', '\r']) hline
    simp only [List.cons_append, List.nil_append] at hinside
    rw [lines_append hline, List.forall_mem_cons, hsuffix, hinside, ne_eq, htwo, not_or]
    exact (and_congr_right fun _ ↦ ih).trans and_assoc.symm

end RunnerManager.Lines
