import RunnerManager.Lib.Text

/-!
# Fields of a line

Two ways to cut a line at runs of separators. `words` drops the empty pieces, as a reader does
that skips blanks; `fields` keeps an empty first or last one, as a reader does that takes every
run for a separator. Read `words_pair_iff` and `fields_pair_iff` first: what a line of two pieces
looks like to each.
-/

namespace RunnerManager.Fields

open RunnerManager.Text

variable {α : Type*} {p : α → Bool} {line rest : List α}

/-- The runs of a line that hold no separator. -/
def words (p : α → Bool) (line : List α) : List (List α) :=
  (line.splitOnP p).filter (!·.isEmpty)

/-- The pieces of a nonempty line between its runs of separators. -/
def fields (p : α → Bool) (line : List α) : List (List α) :=
  if line.isEmpty then []
  else
    match line.splitOnP p with
    | [] => []
    | first :: rest => first :: (rest.dropLast.filter (!·.isEmpty) ++ rest.getLast?.toList)

/-! ## Words -/

theorem words_nil : words p [] = [] := by
  simp [words]

theorem words_separator {c : α} (hc : p c = true) : words p (c :: line) = words p line := by
  simp [words, List.splitOnP_cons_eq_if_modifyHead, hc]

theorem words_append_of_separators {before : List α} (h : ∀ c ∈ before, p c = true) :
    words p (before ++ line) = words p line := by
  induction before with
  | nil => rfl
  | cons c before ih =>
    rw [List.cons_append, words_separator (h c List.mem_cons_self),
      ih fun d hd ↦ h d (List.mem_cons_of_mem c hd)]

theorem words_of_separators (h : ∀ c ∈ line, p c = true) : words p line = [] := by
  have hempty : words p (line ++ []) = words p [] := words_append_of_separators h
  rwa [List.append_nil, words_nil] at hempty

theorem words_append_cons {word : List α} {c : α} (hnil : word ≠ [])
    (hword : ∀ d ∈ word, p d = false) (hc : p c = true) :
    words p (word ++ c :: rest) = word :: words p rest := by
  simp [words, List.splitOnP_append_cons_of_forall_mem hword c hc, hnil]

theorem words_word {word : List α} (hnil : word ≠ []) (hword : ∀ d ∈ word, p d = false) :
    words p word = [word] := by
  simp [words, List.splitOnP_eq_singleton hword, hnil]

theorem words_cons_word {c : α} (hc : p c = false) :
    words p (c :: line) =
      (c :: line).takeWhile (!p ·) :: words p ((c :: line).dropWhile (!p ·)) := by
  have hnil : (c :: line).takeWhile (!p ·) ≠ [] := by simp [hc]
  have hword : ∀ d ∈ (c :: line).takeWhile (!p ·), p d = false :=
    fun d hd ↦ by simpa using List.mem_takeWhile_imp hd
  have hline := List.takeWhile_append_dropWhile (p := (!p ·)) (l := c :: line)
  cases hback : (c :: line).dropWhile (!p ·) with
  | nil =>
    rw [hback, List.append_nil] at hline
    rw [words_nil, hline, words_word (List.cons_ne_nil c line) (hline ▸ hword)]
  | cons d rest =>
    have hd : p d = true := by simpa [hback] using List.head?_dropWhile_not (!p ·) (c :: line)
    rw [hback] at hline
    rw [words_separator hd, ← words_append_cons hnil hword hd, hline]

theorem exists_of_words_cons {word : List α} {others : List (List α)}
    (h : words p line = word :: others) :
    ∃ before rest, line = before ++ word ++ rest ∧ (∀ c ∈ before, p c = true) ∧ word ≠ [] ∧
      (∀ c ∈ word, p c = false) ∧ (∀ c ∈ rest.head?, p c = true) ∧ words p rest = others := by
  induction line with
  | nil => exact nomatch words_nil.symm.trans h
  | cons c line ih =>
    by_cases hc : p c = true
    · rw [words_separator hc] at h
      obtain ⟨before, rest, rfl, hbefore, hword⟩ := ih h
      refine ⟨c :: before, rest, rfl, ?_, hword⟩
      simpa [hc] using hbefore
    · rw [words_cons_word (by simpa using hc)] at h
      obtain ⟨rfl, rfl⟩ := List.cons.inj h
      refine ⟨[], _, ?_, by simp, by simp [hc], fun d hd ↦ ?_, fun d hd ↦ ?_, rfl⟩
      · rw [List.nil_append, List.takeWhile_append_dropWhile]
      · simpa using List.mem_takeWhile_imp hd
      · have hstop := List.head?_dropWhile_not (!p ·) (c :: line)
        rw [Option.mem_def.mp hd] at hstop
        simpa using hstop

theorem separators_of_words (h : words p line = []) : ∀ c ∈ line, p c = true := by
  induction line with
  | nil => simp
  | cons c line ih =>
    by_cases hc : p c = true
    · rw [words_separator hc] at h
      simpa [hc] using ih h
    · rw [words_cons_word (by simpa using hc)] at h
      exact nomatch h

theorem words_pair_iff {first second : List α} :
    words p line = [first, second] ↔ ∃ before gap after,
      line = before ++ first ++ gap ++ second ++ after ∧
      (∀ c ∈ before, p c = true) ∧ (∀ c ∈ gap, p c = true) ∧ (∀ c ∈ after, p c = true) ∧
      gap ≠ [] ∧ (first ≠ [] ∧ ∀ c ∈ first, p c = false) ∧
      (second ≠ [] ∧ ∀ c ∈ second, p c = false) := by
  constructor
  · intro h
    obtain ⟨before, rest, rfl, hbefore, hfirst, hfree, hhead, h⟩ := exists_of_words_cons h
    obtain ⟨gap, after, rfl, hgap, hsecond, hfree', -, h⟩ := exists_of_words_cons h
    refine ⟨before, gap, after, by simp, hbefore, hgap, separators_of_words h, ?_,
      ⟨hfirst, hfree⟩, hsecond, hfree'⟩
    rintro rfl
    -- without a gap the second word would go on where the first ended
    obtain ⟨c, second, rfl⟩ := List.exists_cons_of_ne_nil hsecond
    have hc := hhead c (by simp)
    rw [hfree' c List.mem_cons_self] at hc
    exact nomatch hc
  · rintro ⟨before, gap, after, rfl, hbefore, hgap, hafter, hnil, ⟨hfirst, hfree⟩, hsecond, hfree'⟩
    obtain ⟨c, gap, rfl⟩ := List.exists_cons_of_ne_nil hnil
    have hlast : words p (second ++ after) = [second] := by
      cases after with
      | nil => rw [List.append_nil, words_word hsecond hfree']
      | cons d after =>
        rw [words_append_cons hsecond hfree' (hafter d List.mem_cons_self),
          words_of_separators fun c hc ↦ hafter c (List.mem_cons_of_mem d hc)]
    rw [show before ++ first ++ c :: gap ++ second ++ after
        = before ++ (first ++ c :: (gap ++ (second ++ after))) by simp,
      words_append_of_separators hbefore,
      words_append_cons hfirst hfree (hgap c List.mem_cons_self),
      words_append_of_separators fun d hd ↦ hgap d (List.mem_cons_of_mem c hd), hlast]

theorem words_concat_separator {c : α} (hc : p c = true) :
    words p (line ++ [c]) = words p line := by
  simp [words, List.splitOnP_append_cons line [] hc]

theorem words_rdropWhile {drops : α → Bool} (h : ∀ c, drops c = true → p c = true) :
    words p (line.rdropWhile drops) = words p line := by
  induction line using List.reverseRecOn with
  | nil => simp
  | append_singleton line c ih =>
    by_cases hc : drops c = true
    · rw [List.rdropWhile_concat_pos _ _ _ hc, ih, words_concat_separator (h c hc)]
    · rw [List.rdropWhile_concat_neg _ _ _ hc]

/-! ## Fields -/

theorem splitOnP_append_of_separators {gap : List α} (h : ∀ c ∈ gap, p c = true) :
    (gap ++ rest).splitOnP p = List.replicate gap.length [] ++ rest.splitOnP p := by
  induction gap with
  | nil => rfl
  | cons c gap ih =>
    rw [List.cons_append, List.splitOnP_cons_eq_if_modifyHead,
      if_pos (h c List.mem_cons_self), ih fun d hd ↦ h d (List.mem_cons_of_mem c hd)]
    rfl

theorem eq_of_splitOnP_singleton {piece : List α} (h : line.splitOnP p = [piece]) :
    line = piece := by
  by_cases hfree : ∀ c ∈ line, p c = false
  · rw [List.splitOnP_eq_singleton hfree] at h
    exact (List.cons.inj h).1
  · push Not at hfree
    obtain ⟨c, hmem, hc⟩ := hfree
    obtain ⟨front, back, rfl⟩ := List.append_of_mem hmem
    rw [List.splitOnP_append_cons front back (by simpa using hc)] at h
    have hfront := List.length_pos_of_ne_nil (List.splitOnP_ne_nil p front)
    have hback := List.length_pos_of_ne_nil (List.splitOnP_ne_nil p back)
    have hlength := congrArg List.length h
    rw [List.length_append, List.length_singleton] at hlength
    omega

theorem exists_of_splitOnP_empties {empties : List (List α)} {last : List α}
    (hempties : ∀ piece ∈ empties, piece = []) (h : line.splitOnP p = empties ++ [last]) :
    ∃ gap, line = gap ++ last ∧ ∀ c ∈ gap, p c = true := by
  induction empties generalizing line with
  | nil => exact ⟨[], eq_of_splitOnP_singleton h, by simp⟩
  | cons piece empties ih =>
    obtain ⟨c, rest, hc, rfl, hrest⟩ := exists_of_splitOnP_cons h (by simp)
    obtain ⟨gap, rfl, hgap⟩ :=
      ih (fun other hmem ↦ hempties other (List.mem_cons_of_mem _ hmem)) hrest
    exact ⟨c :: gap, by simp [hempties piece List.mem_cons_self], by simpa [hc] using hgap⟩

/-- A line of two fields: each without separators, and separators between. -/
theorem fields_pair_iff {first second : List α} :
    fields p line = [first, second] ↔ ∃ gap, line = first ++ gap ++ second ∧ gap ≠ [] ∧
      (∀ c ∈ gap, p c = true) ∧ (∀ c ∈ first, p c = false) ∧ ∀ c ∈ second, p c = false := by
  constructor
  · intro h
    have hline : line ≠ [] := by
      rintro rfl
      exact nomatch h
    rw [fields, if_neg (by simpa using hline)] at h
    cases hparts : line.splitOnP p with
    | nil => exact absurd hparts (List.splitOnP_ne_nil p line)
    | cons piece pieces =>
      simp only [hparts, List.cons.injEq] at h
      obtain ⟨rfl, h⟩ := h
      obtain rfl | ⟨empties, last, rfl⟩ := pieces.eq_nil_or_concat
      · exact nomatch h
      · simp only [List.concat_eq_append, List.dropLast_concat, List.getLast?_concat,
          Option.toList_some, List.append_eq_singleton_iff] at h
        obtain ⟨hempties, hlast⟩ | ⟨-, hlast⟩ := h
        · obtain rfl : last = second := by simpa using hlast
          rw [List.concat_eq_append] at hparts
          obtain ⟨c, rest, hc, rfl, hrest⟩ := exists_of_splitOnP_cons hparts (by simp)
          obtain ⟨gap, rfl, hgap⟩ := exists_of_splitOnP_empties (by simpa using hempties) hrest
          have hfree := splitOnP_parts (p := p) (piece ++ c :: (gap ++ last))
          rw [hparts] at hfree
          exact ⟨c :: gap, by simp, by simp, by simpa [hc] using hgap, hfree piece (by simp),
            hfree last (by simp)⟩
        · exact nomatch hlast
  · rintro ⟨gap, rfl, hnil, hgap, hfirst, hsecond⟩
    obtain ⟨c, gap, rfl⟩ := List.exists_cons_of_ne_nil hnil
    have hparts : (first ++ c :: gap ++ second).splitOnP p =
        first :: (List.replicate gap.length [] ++ [second]) := by
      rw [show first ++ c :: gap ++ second = first ++ c :: (gap ++ second) by simp,
        List.splitOnP_append_cons_of_forall_mem hfirst c (hgap c List.mem_cons_self),
        splitOnP_append_of_separators fun d hd ↦ hgap d (List.mem_cons_of_mem c hd),
        List.splitOnP_eq_singleton hsecond]
    rw [fields, if_neg (by simp), hparts]
    simp

end RunnerManager.Fields
