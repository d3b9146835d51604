import Mathlib.Data.List.Basic
import Mathlib.Tactic.Common

/-!
# Command lines

`quote_argument` and `split_command_line` of `crates/platform/src/service.rs`. A registration is one
string in the service manager, and whose installation it is has to be read back out of that string.
`splitCommandLine_quoted` says that what was quoted is what is read back.
-/

namespace RunnerManager.Platform

/-! ## Quoting -/

def needsQuotes (c : Char) : Bool :=
  c = ' ' || c = '"' || c = '\t' || c = '\n'

/-- The loop of `quote_argument`. Backslashes are doubled before a quote and at the end. -/
def quoteLoop : List Char → (backslashes : Nat) → List Char
  | [], backslashes => List.replicate backslashes '\\' ++ ['"']
  | c :: rest, backslashes =>
    if c = '\\' then '\\' :: quoteLoop rest (backslashes + 1)
    else if c = '"' then
      List.replicate (backslashes + 1) '\\' ++ '"' :: quoteLoop rest 0
    else c :: quoteLoop rest 0

/-- `quote_argument`, on characters. -/
def quoteChars (argument : List Char) : List Char :=
  if argument ≠ [] && !argument.any needsQuotes then argument else '"' :: quoteLoop argument 0

def quoteArgument (argument : String) : String :=
  String.ofList (quoteChars argument.toList)

/-! ## Splitting -/

/-- The variables of `split_command_line`. -/
structure Splitter where
  arguments : List String
  current : List Char
  started : Bool
  quoted : Bool
  backslashes : Nat

namespace Splitter

/-- What the argument being read would be if it ended here. -/
def pending (s : Splitter) : List Char :=
  s.current ++ List.replicate s.backslashes '\\'

def step (s : Splitter) (c : Char) : Splitter :=
  if c = '\\' then { s with started := true, backslashes := s.backslashes + 1 }
  else if c = '"' then
    let current := s.current ++ List.replicate (s.backslashes / 2) '\\'
    if s.backslashes % 2 = 0 then
      { s with current, quoted := !s.quoted, started := true, backslashes := 0 }
    else { s with current := current ++ ['"'], started := true, backslashes := 0 }
  else if (c = ' ' || c = '\t') && !s.quoted then
    if s.started then
      { s with
        arguments := s.arguments ++ [String.ofList s.pending]
        current := []
        started := false
        backslashes := 0 }
    else { s with current := s.pending, backslashes := 0 }
  else { s with current := s.pending ++ [c], started := true, backslashes := 0 }

def finish (s : Splitter) : List String :=
  if s.started then s.arguments ++ [String.ofList s.pending] else s.arguments

end Splitter

def splitCommandLine (commandLine : String) : List String :=
  (commandLine.toList.foldl Splitter.step ⟨[], [], false, false, 0⟩).finish

/-! ## Reading back -/

namespace Splitter

variable {s : Splitter}

theorem step_plain {c : Char} (hslash : c ≠ '\\') (hquote : c ≠ '"')
    (hspace : s.quoted = true ∨ c ≠ ' ' ∧ c ≠ '\t') :
    s.step c = { s with current := s.pending ++ [c], started := true, backslashes := 0 } := by
  obtain hquoted | ⟨hblank, htab⟩ := hspace
  · simp [step, hslash, hquote, hquoted]
  · simp [step, hslash, hquote, hblank, htab]

theorem step_backslash :
    s.step '\\' = { s with started := true, backslashes := s.backslashes + 1 } := by
  simp [step]

theorem foldl_backslashes (n : Nat) (hstarted : s.started = true) :
    (List.replicate n '\\').foldl step s = { s with backslashes := s.backslashes + n } := by
  induction n generalizing s with
  | zero => rfl
  | succ n ih =>
    rw [List.replicate_succ, List.foldl_cons, step_backslash, ih rfl]
    simp [hstarted, Nat.add_comm, Nat.add_left_comm]

theorem foldl_plain (argument : List Char) (hplain : argument.any needsQuotes = false)
    (hquoted : s.quoted = false) (hstarted : s.started = true ∨ argument ≠ []) :
    ∃ current backslashes,
      argument.foldl step s = ⟨s.arguments, current, true, false, backslashes⟩ ∧
        current ++ List.replicate backslashes '\\' = s.pending ++ argument := by
  induction argument generalizing s with
  | nil =>
    have hstarted' : s.started = true := hstarted.resolve_right fun h ↦ h rfl
    refine ⟨s.current, s.backslashes, ?_, by simp [pending]⟩
    cases s
    cases hquoted
    cases hstarted'
    rfl
  | cons c rest ih =>
    simp only [List.any_cons, Bool.or_eq_false_iff] at hplain
    rw [List.foldl_cons]
    by_cases hslash : c = '\\'
    · subst hslash
      rw [step_backslash]
      obtain ⟨current, backslashes, hfold, hpending⟩ := ih
        (s := { s with started := true, backslashes := s.backslashes + 1 }) hplain.2 hquoted
        (.inl rfl)
      refine ⟨current, backslashes, hfold, ?_⟩
      rw [hpending]
      simp [pending, List.replicate_succ']
    · have hchar : c ≠ ' ' ∧ c ≠ '"' ∧ c ≠ '\t' := by
        have := hplain.1
        simp only [needsQuotes, Bool.or_eq_false_iff, decide_eq_false_iff_not] at this
        exact ⟨this.1.1.1, this.1.1.2, this.1.2⟩
      rw [step_plain hslash hchar.2.1 (.inr ⟨hchar.1, hchar.2.2⟩)]
      obtain ⟨current, backslashes, hfold, hpending⟩ := ih
        (s := { s with current := s.pending ++ [c], started := true, backslashes := 0 }) hplain.2
        hquoted (.inl rfl)
      refine ⟨current, backslashes, hfold, ?_⟩
      rw [hpending]
      simp [pending]

theorem foldl_quoteLoop (argument : List Char) (hquoted : s.quoted = true)
    (hstarted : s.started = true) :
    (quoteLoop argument s.backslashes).foldl step s =
      ⟨s.arguments, s.pending ++ argument, true, false, 0⟩ := by
  induction argument generalizing s with
  | nil =>
    rw [quoteLoop, List.foldl_append, foldl_backslashes _ hstarted]
    have heven : (s.backslashes + s.backslashes) % 2 = 0 := by omega
    have hhalf : (s.backslashes + s.backslashes) / 2 = s.backslashes := by omega
    simp [step, heven, hhalf, hquoted, pending]
  | cons c rest ih =>
    rw [quoteLoop]
    by_cases hslash : c = '\\'
    · subst hslash
      rw [if_pos rfl, List.foldl_cons, step_backslash]
      rw [ih (s := { s with started := true, backslashes := s.backslashes + 1 }) hquoted rfl]
      simp [pending, List.replicate_succ']
    · rw [if_neg hslash]
      by_cases hquote : c = '"'
      · subst hquote
        rw [if_pos rfl, List.foldl_append, foldl_backslashes _ hstarted, List.foldl_cons]
        have hodd : (s.backslashes + (s.backslashes + 1)) % 2 = 1 := by omega
        have hhalf : (s.backslashes + (s.backslashes + 1)) / 2 = s.backslashes := by omega
        have hstep :
            Splitter.step { s with backslashes := s.backslashes + (s.backslashes + 1) } '"' =
              { s with current := s.pending ++ ['"'], started := true, backslashes := 0 } := by
          simp [step, hodd, hhalf, pending]
        rw [hstep]
        rw [ih (s := { s with current := s.pending ++ ['"'], started := true, backslashes := 0 })
          hquoted rfl]
        simp [pending]
      · rw [if_neg hquote, List.foldl_cons, step_plain hslash hquote (.inl hquoted)]
        rw [ih (s := { s with current := s.pending ++ [c], started := true, backslashes := 0 })
          hquoted rfl]
        simp [pending]

def fresh (arguments : List String) : Splitter :=
  ⟨arguments, [], false, false, 0⟩

theorem foldl_quoteChars (arguments : List String) (argument : List Char) :
    ∃ current backslashes, (quoteChars argument).foldl step (fresh arguments) =
        ⟨arguments, current, true, false, backslashes⟩ ∧
      current ++ List.replicate backslashes '\\' = argument := by
  rw [quoteChars]
  split_ifs with hplain
  · simp only [ne_eq, Bool.and_eq_true, decide_eq_true_eq, Bool.not_eq_true'] at hplain
    obtain ⟨current, backslashes, hfold, hpending⟩ :=
      foldl_plain (s := fresh arguments) argument hplain.2 rfl (.inr hplain.1)
    exact ⟨current, backslashes, hfold, by simpa [pending, fresh] using hpending⟩
  · have hopen : step (fresh arguments) '"' = ⟨arguments, [], true, true, 0⟩ := by
      simp [step, fresh]
    refine ⟨argument, 0, ?_, by simp⟩
    rw [List.foldl_cons, hopen]
    exact foldl_quoteLoop (s := ⟨arguments, [], true, true, 0⟩) argument rfl rfl

theorem foldl_arguments (arguments : List String) (earlier : List String) (current : List Char)
    (backslashes : Nat) {last : String}
    (hlast : String.ofList (current ++ List.replicate backslashes '\\') = last) :
    ((arguments.flatMap fun argument ↦ ' ' :: quoteChars argument.toList).foldl step
      ⟨earlier, current, true, false, backslashes⟩).finish = earlier ++ last :: arguments := by
  induction arguments generalizing earlier current backslashes last with
  | nil => simp [finish, pending, hlast]
  | cons argument rest ih =>
    have hspace : step ⟨earlier, current, true, false, backslashes⟩ ' ' =
        fresh (earlier ++ [last]) := by
      simp [step, fresh, pending, hlast]
    obtain ⟨current, backslashes, hfold, hpending⟩ :=
      foldl_quoteChars (earlier ++ [last]) argument.toList
    rw [List.flatMap_cons, List.cons_append, List.foldl_cons, hspace, List.foldl_append, hfold]
    rw [ih (earlier ++ [last]) current backslashes (by rw [hpending, String.ofList_toList])]
    simp

end Splitter

/-- A command line is the quoted binary and the quoted arguments, separated by spaces. -/
def joinCommandLine (binary : String) (arguments : List String) : String :=
  arguments.foldl (fun out argument ↦ out ++ " " ++ quoteArgument argument) (quoteArgument binary)

theorem toList_joinCommandLine (binary : String) (arguments : List String) :
    (joinCommandLine binary arguments).toList = quoteChars binary.toList ++
      arguments.flatMap fun argument ↦ ' ' :: quoteChars argument.toList := by
  have hjoin : ∀ out : String, (arguments.foldl
      (fun out argument ↦ out ++ " " ++ quoteArgument argument) out).toList =
        out.toList ++ arguments.flatMap fun argument ↦ ' ' :: quoteChars argument.toList := by
    intro out
    induction arguments generalizing out with
    | nil => simp
    | cons argument rest ih =>
      rw [List.foldl_cons, ih]
      simp [quoteArgument]
  rw [joinCommandLine, hjoin]
  simp [quoteArgument]

/-- What is read back from a command line is what it was made of. -/
theorem splitCommandLine_quoted (binary : String) (arguments : List String) :
    splitCommandLine (joinCommandLine binary arguments) = binary :: arguments := by
  rw [splitCommandLine, toList_joinCommandLine, List.foldl_append]
  obtain ⟨current, backslashes, hfold, hpending⟩ := Splitter.foldl_quoteChars [] binary.toList
  have hfold' : (quoteChars binary.toList).foldl Splitter.step ⟨[], [], false, false, 0⟩ =
      ⟨[], current, true, false, backslashes⟩ := hfold
  rw [hfold']
  exact Splitter.foldl_arguments arguments [] current backslashes
    (by rw [hpending, String.ofList_toList])

end RunnerManager.Platform
