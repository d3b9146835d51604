import Mathlib.Data.List.Infix

/-!
# Streams read piece by piece

A stream is the list of the symbols that are still to come, and a reader returns what it took
with what it left. Read `readUntil_iff` first: reading up to a terminator takes the shortest
front of the stream that ends in it, and nothing else.
-/

namespace RunnerManager.Streams

variable {α ε : Type}

/-- The next symbols, a number of them. -/
def readExact (ended : ε) (count : ℕ) (stream : List α) : Except ε (List α × List α) :=
  if count ≤ stream.length then .ok (stream.take count, stream.drop count) else .error ended

/-- The symbols up to and including a terminator; `seen` is what was read before. -/
def readUntil [DecidableEq α] (terminator : List α) (limit : ℕ) (ended tooLarge : ε)
    (seen : List α) : List α → Except ε (List α × List α)
  | [] => .error ended
  | symbol :: rest =>
    if limit < (seen ++ [symbol]).length then .error tooLarge
    else if terminator.isSuffixOf (seen ++ [symbol]) then .ok (seen ++ [symbol], rest)
    else readUntil terminator limit ended tooLarge (seen ++ [symbol]) rest

def EndsAt (terminator text : List α) : Prop :=
  terminator <:+ text ∧ ¬ terminator <:+: text.dropLast

variable {ended tooLarge : ε} {stream front rest terminator : List α}

theorem readExact_iff {count : ℕ} :
    readExact ended count stream = .ok (front, rest) ↔
      stream = front ++ rest ∧ front.length = count := by
  unfold readExact
  split_ifs with h
  · rw [Except.ok.injEq, Prod.mk.injEq]
    constructor
    · rintro ⟨rfl, rfl⟩
      exact ⟨(List.take_append_drop count stream).symm, List.length_take_of_le h⟩
    · rintro ⟨rfl, rfl⟩
      exact ⟨List.take_left, List.drop_left⟩
  · constructor
    · intro hread
      cases hread
    · rintro ⟨rfl, rfl⟩
      exact absurd (by simp) h

section Until

variable [DecidableEq α] {limit : ℕ} {seen : List α}

/-- From a text without the terminator on, the reader takes up to the first one. -/
theorem readUntil_from_iff (hseen : ¬ terminator <:+: seen) {found : List α} :
    readUntil terminator limit ended tooLarge seen stream = .ok (found, rest) ↔
      ∃ front, front ≠ [] ∧ stream = front ++ rest ∧ found = seen ++ front ∧
        EndsAt terminator found ∧ found.length ≤ limit := by
  induction stream generalizing seen with
  | nil =>
    constructor
    · intro h
      cases h
    · rintro ⟨front, hne, hstream, -⟩
      exact absurd (List.append_eq_nil_iff.mp hstream.symm).1 hne
  | cons symbol stream ih =>
    rw [readUntil]
    by_cases hlimit : limit < (seen ++ [symbol]).length
    · rw [if_pos hlimit]
      constructor
      · intro h
        cases h
      · rintro ⟨front, hne, -, rfl, -, hlength⟩
        have hpos := List.length_pos_iff.mpr hne
        simp only [List.length_append, List.length_singleton] at hlimit hlength
        omega
    · rw [if_neg hlimit]
      by_cases hend : terminator <:+ seen ++ [symbol]
      · rw [if_pos (List.isSuffixOf_iff_suffix.mpr hend), Except.ok.injEq, Prod.mk.injEq]
        constructor
        · rintro ⟨rfl, rfl⟩
          exact ⟨[symbol], by simp, rfl, rfl, ⟨hend, by rwa [List.dropLast_concat]⟩, by omega⟩
        · -- a longer front would hold the terminator before its end
          rintro ⟨front, hne, hstream, rfl, ⟨-, hearlier⟩, -⟩
          obtain ⟨first, front, rfl⟩ := List.exists_cons_of_ne_nil hne
          obtain ⟨rfl, rfl⟩ := List.cons.inj hstream
          obtain rfl | hfront := front.eq_nil_or_concat
          · exact ⟨rfl, rfl⟩
          · obtain ⟨inner, last, rfl⟩ := hfront
            refine absurd (hend.isInfix.trans ?_) hearlier
            rw [List.concat_eq_append, ← List.cons_append, ← List.append_assoc,
              List.dropLast_concat]
            exact ⟨[], inner, by simp⟩
      · rw [if_neg fun h ↦ hend (List.isSuffixOf_iff_suffix.mp h)]
        have hnext : ¬ terminator <:+: seen ++ [symbol] := fun h ↦
          (List.infix_concat_iff.mp h).elim hend hseen
        rw [ih hnext]
        constructor
        · rintro ⟨front, hne, rfl, rfl, hends, hlength⟩
          exact ⟨symbol :: front, by simp, rfl, by simp, hends, hlength⟩
        · rintro ⟨front, hne, hstream, rfl, hends, hlength⟩
          obtain ⟨first, front, rfl⟩ := List.exists_cons_of_ne_nil hne
          obtain ⟨rfl, rfl⟩ := List.cons.inj hstream
          refine ⟨front, ?_, rfl, by simp, hends, hlength⟩
          rintro rfl
          exact hend hends.1

theorem readUntil_iff (h : terminator ≠ []) :
    readUntil terminator limit ended tooLarge [] stream = .ok (front, rest) ↔
      stream = front ++ rest ∧ EndsAt terminator front ∧ front.length ≤ limit := by
  rw [readUntil_from_iff (by simpa using h)]
  constructor
  · rintro ⟨_, -, rfl, rfl, hends, hlength⟩
    exact ⟨rfl, hends, hlength⟩
  · rintro ⟨rfl, hends, hlength⟩
    refine ⟨front, ?_, rfl, rfl, hends, hlength⟩
    rintro rfl
    exact h (List.suffix_nil.mp hends.1)

end Until

theorem endsAt_unique (h : terminator ≠ []) {front' rest' : List α}
    (hsame : front ++ rest = front' ++ rest') (hends : EndsAt terminator front)
    (hends' : EndsAt terminator front') : front = front' ∧ rest = rest' := by
  classical
  have hread (limit : ℕ) {front rest : List α} (hstream : front' ++ rest' = front ++ rest)
      (hends : EndsAt terminator front) (hlength : front.length ≤ limit) :
      readUntil terminator limit () () [] (front' ++ rest') = .ok (front, rest) :=
    (readUntil_iff h).mpr ⟨hstream, hends, hlength⟩
  have hfirst := hread (front.length + front'.length) hsame.symm hends (by omega)
  have hsecond := hread (front.length + front'.length) rfl hends' (by omega)
  rw [hfirst, Except.ok.injEq, Prod.mk.injEq] at hsecond
  exact hsecond

end RunnerManager.Streams
