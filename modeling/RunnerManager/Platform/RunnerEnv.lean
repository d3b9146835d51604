import RunnerManager.Lib.Lines
import RunnerManager.Lib.Result
import RunnerManager.Lib.Text

/-!
# The host's `runner.env`

The file every native launch reads, from `platform/src/runner_env.rs`: `RunnerEnv::parse`, its
text, and the edits of `host env set` and `unset`. The platform enters as `windows`, on which
names are compared without regard to case. Read `parse_render` first: a well formed environment
whose lines end in no carriage return is read back from its text. `round_trip_iff` says for which
files that holds of every edit.
-/

namespace RunnerManager.Platform

open Text (isWhitespace foldAscii)
open Lines (lines unlines stripReturn)

/-! ## The file -/

def reservedNames : List (List Char) :=
  ["TMPDIR".toList, "TEMP".toList, "TMP".toList]

def reservedPrefix : List Char := "ACTIONS_RUNNER_INPUT_".toList

/-- `RunnerEnvError`, but for the failures of the disk. -/
inductive RunnerEnvError where
  | notAnAssignment (line : Option ℕ)
  | invalidName (line : Option ℕ)
  | reserved (line : Option ℕ) (name : List Char)
  | duplicate (line : ℕ) (name : List Char)
  | lineBreak (line : Option ℕ) (name : List Char)
deriving DecidableEq

namespace RunnerEnvError

def line : RunnerEnvError → Option ℕ
  | notAnAssignment line => line
  | invalidName line => line
  | reserved line _ => line
  | duplicate line _ => some line
  | lineBreak line _ => line

/-- How an error begins. -/
def atLine : Option ℕ → String
  | none => ""
  | some line => "line " ++ toString line ++ ": "

def message : RunnerEnvError → String
  | notAnAssignment line => atLine line ++ "is not KEY=VALUE"
  | invalidName line =>
    atLine line ++ "the name before `=` is not a valid environment variable name; use " ++
      "letters, digits and `_`, not starting with a digit"
  | reserved line name =>
    atLine line ++ "`" ++ String.ofList name ++
      "` is set by runner-manager for every runner and cannot be changed"
  | duplicate line name =>
    "line " ++ toString line ++ " sets `" ++ String.ofList name ++ "` a second time"
  | lineBreak line name =>
    atLine line ++ "the value of `" ++ String.ofList name ++
      "` contains a line break or a NUL character, which runner.env cannot hold"

end RunnerEnvError

/-- `Line`: a comment or blank line as it stands, or a variable. -/
inductive EnvLine where
  | text (raw : List Char)
  | entry (name value : List Char)
deriving DecidableEq

structure RunnerEnv where
  lines : List EnvLine
deriving DecidableEq

def isReserved (name : List Char) : Bool :=
  let upper := name.map Char.toUpper
  reservedPrefix.isPrefixOf upper || reservedNames.contains upper

def sameName (windows : Bool) (a b : List Char) : Bool :=
  if windows then foldAscii a == foldAscii b else a == b

def validateName (name : List Char) (line : Option ℕ) : Except RunnerEnvError Unit :=
  let valid :=
    match name with
    | [] => false
    | first :: rest =>
      (first.isAlpha || first == '_') && rest.all fun c ↦ c.isAlphanum || c == '_'
  if !valid then .error (.invalidName line)
  else if isReserved name then .error (.reserved line name)
  else .ok ()

/-- What stands before and after the first `=`. -/
def splitAssign (text : List Char) : Option (List Char × List Char) :=
  match text.dropWhile (· != '=') with
  | [] => none
  | _ :: value => some (text.takeWhile (· != '='), value)

def EnvLine.entry? : EnvLine → Option (List Char × List Char)
  | text _ => none
  | entry name value => some (name, value)

def EnvLine.render : EnvLine → List Char
  | text raw => raw
  | entry name value => name ++ '=' :: value

namespace RunnerEnv

variable (windows : Bool)

def entries (env : RunnerEnv) : List (List Char × List Char) :=
  env.lines.filterMap EnvLine.entry?

def get (env : RunnerEnv) (name : List Char) : Option (List Char) :=
  (env.entries.find? fun entry ↦ sameName windows entry.1 name).map (·.2)

/-- One pass of the loop of `parse`, over one line of the file. -/
def readLine (env : RunnerEnv) (line : ℕ) (raw : List Char) : Except RunnerEnvError EnvLine := do
  let raw := stripReturn raw
  let trimmed := raw.dropWhile isWhitespace
  if trimmed.isEmpty || trimmed.head? == some '#' then
    return .text raw
  match splitAssign trimmed with
  | none => .error (.notAnAssignment (some line))
  | some (before, value) =>
    let name := before.rdropWhile isWhitespace
    validateName name (some line)
    if value.contains '\x00' then .error (.lineBreak (some line) name)
    else if (env.get windows name).isSome then .error (.duplicate line name)
    else return .entry name value

/-- The loop of `parse`, from a line on. -/
def readLines (env : RunnerEnv) (index : ℕ) : List (List Char) → Except RunnerEnvError RunnerEnv
  | [] => .ok env
  | raw :: rest => do
    let line ← readLine windows env (index + 1) raw
    readLines ⟨env.lines ++ [line]⟩ (index + 1) rest

def parse (text : List Char) : Except RunnerEnvError RunnerEnv :=
  readLines windows ⟨[]⟩ 0 (Lines.lines text)

def render (env : RunnerEnv) : List Char :=
  unlines (env.lines.map EnvLine.render)

/-- The loop of `set`: the lines with the first entry of a name replaced, if there is one. -/
def replaceFirst (name value : List Char) : List EnvLine → Option (List EnvLine)
  | [] => none
  | .text raw :: rest => (replaceFirst name value rest).map (.text raw :: ·)
  | .entry existing current :: rest =>
    if sameName windows existing name then some (.entry existing value :: rest)
    else (replaceFirst name value rest).map (.entry existing current :: ·)

/-- `RunnerEnv::set`: the environment afterwards, and what is returned. -/
def set (env : RunnerEnv) (name value : List Char) : RunnerEnv × Except RunnerEnvError Bool :=
  match validateName name none with
  | .error e => (env, .error e)
  | .ok () =>
    if value.any fun c ↦ c == '\n' || c == '\r' || c == '\x00' then
      (env, .error (.lineBreak none name))
    else
      match replaceFirst windows name value env.lines with
      | some replaced => (⟨replaced⟩, .ok true)
      | none => (⟨env.lines ++ [.entry name value]⟩, .ok false)

/-- A line that `unset` keeps. -/
def stays (name : List Char) : EnvLine → Bool
  | .text _ => true
  | .entry existing _ => !sameName windows existing name

/-- `RunnerEnv::unset`: the environment afterwards, and what is returned. -/
def unset (env : RunnerEnv) (name : List Char) : RunnerEnv × Bool :=
  let kept := env.lines.filter (stays windows name)
  (⟨kept⟩, kept.length != env.lines.length)

end RunnerEnv

/-- An edit of `host env`. -/
inductive EnvEdit where
  | set (name value : List Char)
  | unset (name : List Char)

def EnvEdit.name : EnvEdit → List Char
  | set name _ => name
  | unset name => name

namespace RunnerEnv

variable (windows : Bool)

/-- The environment after an edit, accepted or refused. -/
def edit (env : RunnerEnv) : EnvEdit → RunnerEnv
  | .set name value => (env.set windows name value).1
  | .unset name => (env.unset windows name).1

/-- The environment after a sequence of edits. -/
def run (env : RunnerEnv) (edits : List EnvEdit) : RunnerEnv :=
  edits.foldl (edit windows) env

end RunnerEnv

/-! ## What the file is to keep -/

/-- What holds of an environment that `host env` may reach. -/
structure EnvKept (windows : Bool) (env : RunnerEnv) : Prop where
  unique : env.entries.Pairwise fun a b ↦ sameName windows a.1 b.1 = false
  unreserved : ∀ entry ∈ env.entries, isReserved entry.1 = false
  frame : ∀ edit, (env.edit windows edit).lines.filter (RunnerEnv.stays windows edit.name) =
    env.lines.filter (RunnerEnv.stays windows edit.name)
  refused : ∀ name value e, (env.set windows name value).2 = .error e →
    (env.set windows name value).1 = env
  readBack : RunnerEnv.parse windows env.render = .ok env

/-- A line as `parse` and the edits make it. -/
def EnvLine.Valid : EnvLine → Prop
  | text raw =>
    (raw.dropWhile isWhitespace = [] ∨ (raw.dropWhile isWhitespace).head? = some '#') ∧
      '\n' ∉ raw
  | entry name value => validateName name none = .ok () ∧ '\x00' ∉ value ∧ '\n' ∉ value

/-- No line ends in a carriage return. -/
def RunnerEnv.Clean (env : RunnerEnv) : Prop :=
  ∀ line ∈ env.lines, line.render.getLast? ≠ some '\r'

/-- Every line is valid, and no name stands twice. -/
structure RunnerEnv.WellFormed (windows : Bool) (env : RunnerEnv) : Prop where
  unique : env.entries.Pairwise fun a b ↦ sameName windows a.1 b.1 = false
  valid : ∀ line ∈ env.lines, line.Valid

section

variable {windows : Bool} {env : RunnerEnv} {name value text raw : List Char} {line : EnvLine}
  {index : ℕ}

/-! ### Names -/

def nameChar (c : Char) : Bool :=
  c.isAlphanum || c == '_'

theorem nameChar_ascii {c : Char} (h : nameChar c = true) : c.toNat < 128 := by
  have htoNat : c.toNat = c.val.toNat := rfl
  have hupper : 'Z'.val.toNat = 90 := rfl
  have hlower : 'z'.val.toNat = 122 := rfl
  have hdigit : '9'.val.toNat = 57 := rfl
  delta nameChar Char.isAlphanum Char.isAlpha Char.isUpper Char.isLower Char.isDigit at h
  simp only [Bool.or_eq_true, Bool.and_eq_true, decide_eq_true_eq, beq_iff_eq, ge_iff_le,
    UInt32.le_iff_toNat_le] at h
  obtain h | rfl := h
  · omega
  · decide

theorem nameChar_plain {c : Char} (h : nameChar c = true) :
    isWhitespace c = false ∧ c ≠ '=' ∧ c ≠ '#' ∧ c ≠ '\n' :=
  Text.ascii_induction (P := fun c ↦ nameChar c = true →
    isWhitespace c = false ∧ c ≠ '=' ∧ c ≠ '#' ∧ c ≠ '\n') (by decide)
    (nameChar_ascii h) h

theorem validateName_iff {at? : Option ℕ} : validateName name at? = .ok () ↔
    (∃ first rest, name = first :: rest ∧ (first.isAlpha || first == '_') = true ∧
      ∀ c ∈ rest, nameChar c = true) ∧ isReserved name = false := by
  unfold validateName
  cases name with
  | nil => simp
  | cons first rest =>
    dsimp only
    rw [Result.ite_error_eq_ok, Result.ite_error_eq_ok]
    simp only [Bool.not_eq_true', Bool.not_eq_false, Bool.and_eq_true, List.all_eq_true,
      List.cons.injEq, nameChar, Bool.not_eq_true, and_true]
    refine and_congr_left fun _ ↦ ⟨fun h ↦ ⟨first, rest, ⟨rfl, rfl⟩, h⟩, ?_⟩
    rintro ⟨_, _, ⟨rfl, rfl⟩, h⟩
    exact h

theorem validateName_none {at? : Option ℕ} (h : validateName name at? = .ok ()) :
    validateName name none = .ok () := by
  rw [validateName_iff] at h ⊢
  exact h

theorem nameChar_of_valid {at? : Option ℕ} (h : validateName name at? = .ok ()) :
    name ≠ [] ∧ ∀ c ∈ name, nameChar c = true := by
  rw [validateName_iff] at h
  obtain ⟨⟨first, rest, rfl, hfirst, hrest⟩, -⟩ := h
  refine ⟨List.cons_ne_nil first rest, fun c hc ↦ ?_⟩
  obtain rfl | hc := List.mem_cons.mp hc
  · simp only [Bool.or_eq_true] at hfirst
    simp only [nameChar, Char.isAlphanum, Bool.or_eq_true]
    tauto
  · exact hrest c hc

theorem sameName_refl (name : List Char) : sameName windows name name = true := by
  unfold sameName
  split_ifs <;> simp

theorem get_eq_none_iff :
    env.get windows name = none ↔ ∀ entry ∈ env.entries, sameName windows entry.1 name = false := by
  simp [RunnerEnv.get]

/-! ### Lines -/

theorem splitAssign_iff {before : List Char} :
    splitAssign text = some (before, value) ↔ '=' ∉ before ∧ text = before ++ '=' :: value := by
  unfold splitAssign
  constructor
  · intro h
    cases hrest : text.dropWhile (· != '=') with
    | nil =>
      rw [hrest] at h
      cases h
    | cons c rest =>
      rw [hrest] at h
      cases h
      have hc : c = '=' := by
        have hhead := List.head?_dropWhile_not (· != '=') text
        rw [hrest] at hhead
        simpa using hhead
      refine ⟨fun hmem ↦ ?_, ?_⟩
      · simpa using List.mem_takeWhile_imp hmem
      · have hsame := List.takeWhile_append_dropWhile (p := (· != '=')) (l := text)
        rw [hrest, hc] at hsame
        exact hsame.symm
  · rintro ⟨hbefore, rfl⟩
    have hall : ∀ c ∈ before, (c != '=') = true := fun c hc ↦ by
      simpa using fun heq : c = '=' ↦ hbefore (heq ▸ hc)
    rw [List.dropWhile_append_of_pos hall, List.takeWhile_append_of_pos hall]
    simp

/-- What `readLine` returned. -/
structure ReadAs (windows : Bool) (env : RunnerEnv) (raw : List Char) (line : EnvLine) : Prop where
  valid : line.Valid
  fresh : ∀ entry, line.entry? = some entry → env.get windows entry.1 = none
  short : line.render.length ≤ (stripReturn raw).length
  last : line.render.getLast? = (stripReturn raw).getLast?

theorem readAs_of_readLine (hraw : '\n' ∉ raw)
    (h : RunnerEnv.readLine windows env index raw = .ok line) : ReadAs windows env raw line := by
  have hstripped : '\n' ∉ stripReturn raw := fun hmem ↦ hraw (Lines.stripReturn_subset hmem)
  unfold RunnerEnv.readLine at h
  dsimp only at h
  split_ifs at h with htext
  · cases h
    refine ⟨⟨?_, hstripped⟩, by simp [EnvLine.entry?], le_refl _, rfl⟩
    simpa [Bool.or_eq_true] using htext
  · split at h
    · cases h
    · next before value hsplit =>
      obtain ⟨hbefore, htrimmed⟩ := splitAssign_iff.mp hsplit
      obtain ⟨_, hname, h⟩ := Result.bind_eq_ok.mp h
      obtain ⟨hnul, h⟩ := Result.ite_error_eq_ok.mp h
      obtain ⟨hset, h⟩ := Result.ite_error_eq_ok.mp h
      cases h
      -- the spaces before the name, and those after it, are what a line may lose
      obtain ⟨spaces, hspaces⟩ := List.dropWhile_suffix isWhitespace (l := stripReturn raw)
      rw [htrimmed] at hspaces
      have hshort := (List.rdropWhile_prefix isWhitespace before).length_le
      have hvalue : '\n' ∉ value := fun hmem ↦ hstripped (by simp [← hspaces, hmem])
      refine ⟨⟨validateName_none hname, by simpa using hnul, hvalue⟩, ?_, ?_, ?_⟩
      · intro entry hentry
        cases hentry
        simpa using hset
      · simp only [EnvLine.render, ← hspaces, List.length_append, List.length_cons]
        omega
      · simp only [EnvLine.render, ← hspaces, List.getLast?_append, List.getLast?_cons]
        simp

/-- A valid line without a carriage return at its end is read back from its text. -/
theorem readLine_render (hvalid : line.Valid) (hclean : line.render.getLast? ≠ some '\r')
    (hfresh : ∀ entry, line.entry? = some entry → env.get windows entry.1 = none) :
    RunnerEnv.readLine windows env index line.render = .ok line := by
  unfold RunnerEnv.readLine
  dsimp only
  rw [Lines.stripReturn_self hclean]
  cases line with
  | text raw =>
    rw [if_pos]
    · rfl
    · simpa [EnvLine.render, Bool.or_eq_true] using hvalid.1
  | entry name value =>
    obtain ⟨hname, hnul, -⟩ := hvalid
    obtain ⟨hnil, hchars⟩ := nameChar_of_valid hname
    have hassign : '=' ∉ name := fun hmem ↦ (nameChar_plain (hchars _ hmem)).2.1 rfl
    -- a name has no spaces around it
    have htrim : name.rdropWhile isWhitespace = name := by
      rw [List.rdropWhile_eq_self_iff]
      intro hne
      simp [(nameChar_plain (hchars _ (List.getLast_mem hne))).1]
    obtain ⟨first, rest, rfl⟩ := List.exists_cons_of_ne_nil hnil
    obtain ⟨hspace, -, hhash, -⟩ := nameChar_plain (hchars first List.mem_cons_self)
    have hstart : (EnvLine.entry (first :: rest) value).render.dropWhile isWhitespace =
        (first :: rest) ++ '=' :: value := by
      simp [EnvLine.render, hspace]
    rw [hstart, if_neg (by simp [hhash]), splitAssign_iff.mpr ⟨hassign, rfl⟩]
    dsimp only
    rw [htrim, validateName_iff.mpr (validateName_iff.mp hname), hfresh _ rfl,
      if_neg (by simpa using hnul)]
    rfl

/-! ### Environments -/

theorem entries_append (before after : List EnvLine) :
    RunnerEnv.entries ⟨before ++ after⟩ =
      RunnerEnv.entries ⟨before⟩ ++ RunnerEnv.entries ⟨after⟩ :=
  List.filterMap_append

theorem entries_singleton (line : EnvLine) : RunnerEnv.entries ⟨[line]⟩ = line.entry?.toList := by
  cases line <;> rfl

theorem mem_entries {entry : List Char × List Char} :
    entry ∈ env.entries ↔ .entry entry.1 entry.2 ∈ env.lines := by
  unfold RunnerEnv.entries
  rw [List.mem_filterMap]
  constructor
  · rintro ⟨line, hline, hentry⟩
    cases line with
    | text raw => cases hentry
    | entry name value =>
      cases hentry
      exact hline
  · exact fun h ↦ ⟨_, h, rfl⟩

theorem wellFormed_concat (h : env.WellFormed windows) (hvalid : line.Valid)
    (hfresh : ∀ entry, line.entry? = some entry → env.get windows entry.1 = none) :
    RunnerEnv.WellFormed windows ⟨env.lines ++ [line]⟩ := by
  constructor
  · rw [entries_append, List.pairwise_append]
    refine ⟨h.unique, ?_, fun a ha b hb ↦ ?_⟩
    · rw [entries_singleton]
      cases line.entry? <;> simp
    · rw [entries_singleton, Option.mem_toList] at hb
      exact get_eq_none_iff.mp (hfresh b hb) a ha
  · intro other hother
    obtain hother | hother := List.mem_append.mp hother
    · exact h.valid other hother
    · obtain rfl := List.mem_singleton.mp hother
      exact hvalid

theorem readLines_spec {raws : List (List Char)} {result : RunnerEnv}
    (hraws : ∀ raw ∈ raws, '\n' ∉ raw) (henv : env.WellFormed windows)
    (h : RunnerEnv.readLines windows env index raws = .ok result) :
    result.WellFormed windows ∧ ∃ found, result.lines = env.lines ++ found ∧
      List.Forall₂ (fun raw line ↦ line.render.length ≤ (stripReturn raw).length ∧
        line.render.getLast? = (stripReturn raw).getLast?) raws found := by
  induction raws generalizing env index with
  | nil =>
    cases h
    exact ⟨henv, [], by simp, .nil⟩
  | cons raw raws ih =>
    obtain ⟨line, hline, h⟩ := Result.bind_eq_ok.mp h
    rw [List.forall_mem_cons] at hraws
    have hread := readAs_of_readLine hraws.1 hline
    obtain ⟨hresult, found, hlines, hfound⟩ :=
      ih hraws.2 (wellFormed_concat henv hread.valid hread.fresh) h
    refine ⟨hresult, line :: found, ?_, .cons ⟨hread.short, hread.last⟩ hfound⟩
    rw [hlines, List.append_assoc, List.singleton_append]

theorem readLines_render (before : List EnvLine) {after : List EnvLine}
    (h : RunnerEnv.WellFormed windows ⟨before ++ after⟩)
    (hclean : ∀ line ∈ after, line.render.getLast? ≠ some '\r') :
    RunnerEnv.readLines windows ⟨before⟩ index (after.map EnvLine.render) =
      .ok ⟨before ++ after⟩ := by
  induction after generalizing before index with
  | nil => simp [RunnerEnv.readLines]
  | cons line after ih =>
    rw [List.forall_mem_cons] at hclean
    have hvalid := h.valid line (by simp)
    have hfresh : ∀ entry, line.entry? = some entry →
        RunnerEnv.get windows ⟨before⟩ entry.1 = none := by
      intro entry hentry
      have hunique := h.unique
      rw [entries_append, List.pairwise_append] at hunique
      refine get_eq_none_iff.mpr fun other hother ↦ hunique.2.2 other hother entry ?_
      exact List.mem_filterMap.mpr ⟨line, List.mem_cons_self, hentry⟩
    rw [List.map_cons, RunnerEnv.readLines, readLine_render hvalid hclean.1 hfresh]
    have hcons : before ++ line :: after = before ++ [line] ++ after := by simp
    rw [hcons] at h ⊢
    exact ih _ h hclean.2

theorem newline_notMem_render (h : line.Valid) : '\n' ∉ line.render := by
  cases line with
  | text raw => exact h.2
  | entry name value =>
    obtain ⟨hname, -, hvalue⟩ := h
    simp only [EnvLine.render, List.mem_append, List.mem_cons, not_or]
    exact ⟨fun hmem ↦ (nameChar_plain ((nameChar_of_valid hname).2 _ hmem)).2.2.2 rfl,
      by decide, hvalue⟩

theorem lines_render (h : env.WellFormed windows) :
    lines env.render = env.lines.map fun line ↦ stripReturn line.render := by
  unfold RunnerEnv.render
  rw [Lines.lines_unlines, List.map_map]
  · rfl
  · intro part hpart
    obtain ⟨line, hline, rfl⟩ := List.mem_map.mp hpart
    exact newline_notMem_render (h.valid line hline)

/-- A well formed environment is read back from its text. -/
theorem parse_render (h : env.WellFormed windows) (hclean : env.Clean) :
    RunnerEnv.parse windows env.render = .ok env := by
  have hlines : lines env.render = env.lines.map EnvLine.render := by
    rw [lines_render h]
    exact List.map_congr_left fun line hline ↦ Lines.stripReturn_self (hclean line hline)
  unfold RunnerEnv.parse
  rw [hlines]
  exact readLines_render [] h hclean

theorem wellFormed_empty : RunnerEnv.WellFormed windows ⟨[]⟩ :=
  ⟨List.Pairwise.nil, fun _ hline ↦ absurd hline List.not_mem_nil⟩

theorem parse_spec (h : RunnerEnv.parse windows text = .ok env) :
    env.WellFormed windows ∧
      List.Forall₂ (fun raw line ↦ line.render.length ≤ (stripReturn raw).length ∧
        line.render.getLast? = (stripReturn raw).getLast?) (lines text) env.lines := by
  obtain ⟨hwell, found, hlines, hfound⟩ :=
    readLines_spec (fun raw hraw ↦ Lines.newline_notMem hraw) wellFormed_empty h
  rw [List.nil_append] at hlines
  exact ⟨hwell, hlines ▸ hfound⟩

theorem clean_iff (h : RunnerEnv.parse windows text = .ok env) :
    env.Clean ↔ ¬ ['\r', '\r', '\r', '\n'] <:+: text ∧ ¬ ['\r', '\r'] <:+ text := by
  have hlast : (lines text).map (fun raw ↦ (stripReturn raw).getLast?) =
      env.lines.map fun line ↦ line.render.getLast? := by
    have hlines := (parse_spec h).2
    generalize lines text = raws, env.lines = found at hlines ⊢
    induction hlines with
    | nil => rfl
    | cons hhead _ ih => rw [List.map_cons, List.map_cons, ih, hhead.2]
  have hclean : env.Clean ↔ some '\r' ∉ env.lines.map fun line ↦ line.render.getLast? := by
    simp [RunnerEnv.Clean, eq_comm]
  rw [hclean, ← hlast, ← Lines.stripped_iff]
  simp [eq_comm]

theorem clean_of_readBack (h : RunnerEnv.parse windows env.render = .ok env) : env.Clean := by
  obtain ⟨hwell, hlines⟩ := parse_spec h
  rw [lines_render hwell, List.forall₂_map_left_iff, List.forall₂_same] at hlines
  intro line hline
  -- the line is as long after two removals
  have hshort := (hlines line hline).1
  exact Lines.getLast?_of_length_le (hshort.trans (Lines.length_stripReturn_le _))

/-! ### Edits -/

theorem replaceFirst_spec (windows : Bool) (name value : List Char) (found : List EnvLine) :
    (∃ before existing current after, found = before ++ .entry existing current :: after ∧
      sameName windows existing name = true ∧ RunnerEnv.replaceFirst windows name value found =
        some (before ++ .entry existing value :: after)) ∨
    (RunnerEnv.replaceFirst windows name value found = none ∧
      ∀ entry ∈ RunnerEnv.entries ⟨found⟩, sameName windows entry.1 name = false) := by
  induction found with
  | nil => exact .inr ⟨rfl, by simp [RunnerEnv.entries]⟩
  | cons line found ih =>
    cases line with
    | text raw =>
      obtain ⟨before, existing, current, after, rfl, hsame, hreplaced⟩ | ⟨hnone, hother⟩ := ih
      · refine .inl ⟨.text raw :: before, existing, current, after, rfl, hsame, ?_⟩
        rw [RunnerEnv.replaceFirst, hreplaced]
        rfl
      · refine .inr ⟨by rw [RunnerEnv.replaceFirst, hnone]; rfl, hother⟩
    | entry existing current =>
      by_cases hsame : sameName windows existing name = true
      · refine .inl ⟨[], existing, current, found, rfl, hsame, ?_⟩
        rw [RunnerEnv.replaceFirst, if_pos hsame]
        rfl
      · obtain ⟨before, named, held, after, rfl, hnamed, hreplaced⟩ | ⟨hnone, hother⟩ := ih
        · refine .inl ⟨.entry existing current :: before, named, held, after, rfl, hnamed, ?_⟩
          rw [RunnerEnv.replaceFirst, if_neg hsame, hreplaced]
          rfl
        · refine .inr ⟨by rw [RunnerEnv.replaceFirst, if_neg hsame, hnone]; rfl, ?_⟩
          have hcons : RunnerEnv.entries ⟨.entry existing current :: found⟩ =
              (existing, current) :: RunnerEnv.entries ⟨found⟩ := rfl
          rw [hcons, List.forall_mem_cons]
          exact ⟨by simpa using hsame, hother⟩

theorem set_spec (windows : Bool) (env : RunnerEnv) (name value : List Char) :
    (∃ e, env.set windows name value = (env, .error e)) ∨
    validateName name none = .ok () ∧ '\n' ∉ value ∧ '\r' ∉ value ∧ '\x00' ∉ value ∧
      ((∃ before existing current after, env.lines = before ++ .entry existing current :: after ∧
        sameName windows existing name = true ∧ env.set windows name value =
          (⟨before ++ .entry existing value :: after⟩, .ok true)) ∨
      (∀ entry ∈ env.entries, sameName windows entry.1 name = false) ∧
        env.set windows name value = (⟨env.lines ++ [.entry name value]⟩, .ok false)) := by
  unfold RunnerEnv.set
  cases hname : validateName name none with
  | error e => exact .inl ⟨e, rfl⟩
  | ok _ =>
    by_cases hbreak : (value.any fun c ↦ c == '\n' || c == '\r' || c == '\x00') = true
    · exact .inl ⟨_, if_pos hbreak⟩
    · have hchars : '\n' ∉ value ∧ '\r' ∉ value ∧ '\x00' ∉ value := by
        simp only [List.any_eq_true, Bool.or_eq_true, beq_iff_eq, not_exists, not_and,
          not_or] at hbreak
        exact ⟨fun h ↦ (hbreak _ h).1.1 rfl, fun h ↦ (hbreak _ h).1.2 rfl,
          fun h ↦ (hbreak _ h).2 rfl⟩
      refine .inr ⟨rfl, hchars.1, hchars.2.1, hchars.2.2, ?_⟩
      dsimp only
      rw [if_neg hbreak]
      obtain ⟨before, existing, current, after, hlines, hsame, hreplaced⟩ | ⟨hnone, hother⟩ :=
        replaceFirst_spec windows name value env.lines
      · exact .inl ⟨before, existing, current, after, hlines, hsame, by rw [hreplaced]⟩
      · exact .inr ⟨hother, by rw [hnone]⟩

theorem names_replace (before after : List EnvLine) (existing current value : List Char) :
    (RunnerEnv.entries ⟨before ++ .entry existing value :: after⟩).map Prod.fst =
      (RunnerEnv.entries ⟨before ++ .entry existing current :: after⟩).map Prod.fst := by
  simp [RunnerEnv.entries, EnvLine.entry?]

theorem wellFormed_set (h : env.WellFormed windows) (name value : List Char) :
    (env.set windows name value).1.WellFormed windows := by
  obtain ⟨e, hset⟩ | ⟨hname, hnewline, -, hnul, hset⟩ := set_spec windows env name value
  · rw [hset]
    exact h
  · obtain ⟨before, existing, current, after, hlines, -, hset⟩ | ⟨hother, hset⟩ := hset
    · rw [hset]
      -- the name stands already, and only the value is new
      have hexisting := h.valid (.entry existing current) (by simp [hlines])
      constructor
      · have hnames (env : RunnerEnv) := List.pairwise_map (f := Prod.fst) (l := env.entries)
          (R := fun a b ↦ sameName windows a b = false)
        obtain ⟨found⟩ := env
        subst hlines
        refine (hnames _).mp ?_
        rw [names_replace before after existing current value]
        exact (hnames _).mpr h.unique
      · intro line hline
        simp only [List.mem_append, List.mem_cons] at hline
        obtain hline | rfl | hline := hline
        · exact h.valid line (by simp [hlines, hline])
        · exact ⟨hexisting.1, hnul, hnewline⟩
        · exact h.valid line (by simp [hlines, hline])
    · rw [hset]
      refine wellFormed_concat h ⟨hname, hnul, hnewline⟩ fun entry hentry ↦ ?_
      cases hentry
      exact get_eq_none_iff.mpr hother

theorem getLast?_entry (name : List Char) (hvalue : '\r' ∉ value) :
    (EnvLine.entry name value).render.getLast? ≠ some '\r' := by
  rw [EnvLine.render, List.getLast?_append_of_ne_nil _ (List.cons_ne_nil _ _)]
  intro hlast
  obtain hsign | hmem := List.mem_cons.mp (List.mem_of_getLast? hlast)
  · revert hsign
    decide
  · exact hvalue hmem

theorem clean_set (h : env.Clean) (name value : List Char) :
    (env.set windows name value).1.Clean := by
  obtain ⟨e, hset⟩ | ⟨-, -, hreturn, -, hset⟩ := set_spec windows env name value
  · rw [hset]
    exact h
  · obtain ⟨before, existing, current, after, hlines, -, hset⟩ | ⟨-, hset⟩ := hset
    · rw [hset]
      intro line hline
      simp only [List.mem_append, List.mem_cons] at hline
      obtain hline | rfl | hline := hline
      · exact h line (by simp [hlines, hline])
      · exact getLast?_entry existing hreturn
      · exact h line (by simp [hlines, hline])
    · rw [hset]
      intro line hline
      obtain hline | hline := List.mem_append.mp hline
      · exact h line hline
      · obtain rfl := List.mem_singleton.mp hline
        exact getLast?_entry name hreturn

theorem wellFormed_edit (h : env.WellFormed windows) (edit : EnvEdit) :
    (env.edit windows edit).WellFormed windows := by
  cases edit with
  | set name value => exact wellFormed_set h name value
  | unset name =>
    exact ⟨h.unique.sublist (List.filter_sublist.filterMap _),
      fun line hline ↦ h.valid line (List.mem_of_mem_filter hline)⟩

theorem clean_edit (h : env.Clean) (edit : EnvEdit) : (env.edit windows edit).Clean := by
  cases edit with
  | set name value => exact clean_set h name value
  | unset name => exact fun line hline ↦ h line (List.mem_of_mem_filter hline)

theorem edit_frame (env : RunnerEnv) (edit : EnvEdit) :
    (env.edit windows edit).lines.filter (RunnerEnv.stays windows edit.name) =
      env.lines.filter (RunnerEnv.stays windows edit.name) := by
  cases edit with
  | set name value =>
    show (env.set windows name value).1.lines.filter (RunnerEnv.stays windows name) = _
    obtain ⟨e, hset⟩ | ⟨-, -, -, -, hset⟩ := set_spec windows env name value
    · rw [hset]
      rfl
    · obtain ⟨before, existing, current, after, hlines, hsame, hset⟩ | ⟨-, hset⟩ := hset
      · rw [hset, hlines]
        simp [RunnerEnv.stays, EnvEdit.name, hsame]
      · rw [hset]
        simp [RunnerEnv.stays, EnvEdit.name, sameName_refl]
  | unset name =>
    show (env.lines.filter _).filter _ = _
    rw [List.filter_filter]
    simp [EnvEdit.name]

theorem set_refused {e : RunnerEnvError} (h : (env.set windows name value).2 = .error e) :
    (env.set windows name value).1 = env := by
  obtain ⟨_, hset⟩ | ⟨-, -, -, -, hset⟩ := set_spec windows env name value
  · rw [hset]
  · obtain ⟨_, _, _, _, -, -, hset⟩ | ⟨-, hset⟩ := hset
    · rw [hset] at h
      cases h
    · rw [hset] at h
      cases h

theorem kept_of_wellFormed (h : env.WellFormed windows) (hclean : env.Clean) :
    EnvKept windows env where
  unique := h.unique
  unreserved _ hentry :=
    (validateName_iff.mp (h.valid _ (mem_entries.mp hentry)).1).2
  frame := edit_frame env
  refused _ _ _ := set_refused
  readBack := parse_render h hclean

theorem run_invariant (edits : List EnvEdit) (h : env.WellFormed windows) (hclean : env.Clean) :
    (env.run windows edits).WellFormed windows ∧ (env.run windows edits).Clean := by
  induction edits generalizing env with
  | nil => exact ⟨h, hclean⟩
  | cons edit edits ih => exact ih (wellFormed_edit h edit) (clean_edit hclean edit)

end

/-- Every edit of an accepted file keeps the others and is read back, if and only if no line end
of the file has three carriage returns, and the end of the text has no two. -/
theorem round_trip_iff {windows : Bool} {text : List Char} {env : RunnerEnv}
    (hparse : RunnerEnv.parse windows text = .ok env) :
    (∀ edits, EnvKept windows (env.run windows edits)) ↔
      ¬ ['\r', '\r', '\r', '\n'] <:+: text ∧ ¬ ['\r', '\r'] <:+ text := by
  rw [← clean_iff hparse]
  constructor
  · intro hkept
    exact clean_of_readBack (hkept []).readBack
  · intro hclean edits
    obtain ⟨hwell, hclean⟩ := run_invariant edits (parse_spec hparse).1 hclean
    exact kept_of_wellFormed hwell hclean

/-- A comment and a variable, in a file with carriage returns at its line ends. -/
theorem crlf_file_kept :
    RunnerEnv.parse true "# tools\r\nCI=1\r\n".toList =
      .ok ⟨[.text "# tools".toList, .entry "CI".toList "1".toList]⟩ ∧
    ∀ edits, EnvKept true
      (RunnerEnv.run true ⟨[.text "# tools".toList, .entry "CI".toList "1".toList]⟩ edits) :=
  have hparse : RunnerEnv.parse true "# tools\r\nCI=1\r\n".toList =
      .ok ⟨[.text "# tools".toList, .entry "CI".toList "1".toList]⟩ := by rfl
  ⟨hparse, (round_trip_iff hparse).mpr ⟨by decide, by decide⟩⟩

/-- The value of a line with three carriage returns is another one after a rewrite. -/
theorem returns_lost :
    RunnerEnv.parse false "A=x\r\r\r\n".toList = .ok ⟨[.entry ['A'] ['x', '\r']]⟩ ∧
      RunnerEnv.parse false (RunnerEnv.render ⟨[.entry ['A'] ['x', '\r']]⟩) =
        .ok ⟨[.entry ['A'] ['x']]⟩ ∧
      ¬ ∀ edits, EnvKept false (RunnerEnv.run false ⟨[.entry ['A'] ['x', '\r']]⟩ edits) := by
  have hread : RunnerEnv.parse false (RunnerEnv.render ⟨[.entry ['A'] ['x', '\r']]⟩) =
      .ok ⟨[.entry ['A'] ['x']]⟩ := by rfl
  refine ⟨by rfl, hread, fun hkept ↦ ?_⟩
  have hback := (hkept []).readBack
  rw [show RunnerEnv.run false ⟨[.entry ['A'] ['x', '\r']]⟩ [] =
    ⟨[.entry ['A'] ['x', '\r']]⟩ from rfl, hread] at hback
  revert hback
  decide

end RunnerManager.Platform
