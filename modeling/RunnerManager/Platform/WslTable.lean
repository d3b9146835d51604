import Mathlib.Data.List.DropRight
import RunnerManager.Lib.Lines
import RunnerManager.Lib.Text

/-!
# Reading the table of distributions

`DistributionTable` of `crates/platform/src/wsl/discovery.rs`: the output of `wsl --list --verbose`
is decoded, its encoding guessed from its bytes, and its rows are cut from the right. `table_read`
says which tables are read as they were printed: all but those in UTF-16 without a byte-order mark
in which fewer than six in ten code units are below 256, such as that of `unread_name`.

A text that is not UTF-8 is decoded by a parameter; what it gives matters to no result.
-/

namespace RunnerManager.Platform.Wsl

open RunnerManager.Text RunnerManager.Lines

/-! ## Decoding -/

def replacementCharacter : Char := Char.ofNat 0xFFFD

def fromUtf16Lossy : List Nat → List Char
  | [] => []
  | unit :: rest =>
    if unit < 0xD800 ∨ 0xDFFF < unit then Char.ofNat unit :: fromUtf16Lossy rest
    else if 0xDC00 ≤ unit then replacementCharacter :: fromUtf16Lossy rest
    else
      match rest with
      | [] => [replacementCharacter]
      | low :: more =>
        if 0xDC00 ≤ low ∧ low ≤ 0xDFFF then
          Char.ofNat (0x10000 + (unit - 0xD800) * 0x400 + (low - 0xDC00)) ::
            fromUtf16Lossy more
        else replacementCharacter :: fromUtf16Lossy (low :: more)

/-- The pairs of bytes as numbers, the low byte first; an odd last byte is dropped. -/
def unitsOf : List UInt8 → List Nat
  | low :: high :: rest => (low.toNat + 256 * high.toNat) :: unitsOf rest
  | _ => []

/-- The second byte of every pair. -/
def highBytes : List UInt8 → List UInt8
  | _ :: high :: rest => high :: highBytes rest
  | _ => []

inductive ConsoleEncoding where
  | utf16Le
  | utf8
deriving DecidableEq

structure DecodedOutput where
  text : List Char
  encoding : ConsoleEncoding
  lossy : Bool
deriving DecidableEq

def decodeUtf16le (bytes : List UInt8) : DecodedOutput :=
  let text := fromUtf16Lossy (unitsOf bytes)
  ⟨text, .utf16Le, bytes.length % 2 ≠ 0 || text.contains replacementCharacter⟩

/-- `decode_utf8`, where a malformed text is decoded by `String::from_utf8_lossy`. -/
def decodeUtf8 (fromUtf8Lossy : List UInt8 → List Char) (bytes : List UInt8) : DecodedOutput :=
  match bytes.toByteArray.utf8Decode? with
  | some text => ⟨text.toList, .utf8, false⟩
  | none => ⟨fromUtf8Lossy bytes, .utf8, true⟩

def looksLikeUtf16le (bytes : List UInt8) : Bool :=
  let nulHighBytes := (highBytes bytes).count 0
  2 ≤ bytes.length && bytes.length % 2 = 0 && nulHighBytes ≠ 0
    && bytes.length / 2 * 6 ≤ nulHighBytes * 10

def decodeConsoleOutput (fromUtf8Lossy : List UInt8 → List Char) (bytes : List UInt8) :
    DecodedOutput :=
  match bytes.dropPrefix? [0xFF, 0xFE] with
  | some rest => decodeUtf16le rest
  | none =>
    match bytes.dropPrefix? [0xEF, 0xBB, 0xBF] with
    | some rest => decodeUtf8 fromUtf8Lossy rest
    | none =>
      if looksLikeUtf16le bytes then decodeUtf16le bytes else decodeUtf8 fromUtf8Lossy bytes

/-! ## Names and rows -/

/-- `WslError`, as far as names go. -/
inductive WslError where
  | invalidName (requested : List Char) (reason : String)
  | notInstalled (requested : List Char) (available : List (List Char))
  | ambiguousName (requested : List Char)
deriving DecidableEq

def maxDistributionName : Nat := 255

def validateDistributionName (name : List Char) : Except WslError Unit :=
  let refuse (reason : String) : Except WslError Unit := .error (.invalidName name reason)
  if name = [] then refuse "it is empty, so it names no distribution"
  else if trim name ≠ name then
    refuse ("it starts or ends with whitespace, which no `wsl --list` row reports and which "
      ++ "would make two different names print identically")
  else if maxDistributionName < name.length then
    refuse "it is longer than a distribution name may be here"
  else if name.any isControl then
    refuse ("it contains a control character, which cannot survive an argument vector or a "
      ++ "scheduled-task document intact")
  else if name.head? = some '-' then
    refuse ("it starts with `-`, so `wsl.exe` would read it as an option rather than as the "
      ++ "distribution to select")
  else if name.contains replacementCharacter then
    refuse ("it contains a Unicode replacement character, which means it was already damaged "
      ++ "by a decoding step and is not the name of anything")
  else .ok ()

structure InstalledDistribution where
  name : List Char
  state : List Char
  wslVersion : Nat
  default : Bool
deriving DecidableEq

structure DistributionTable where
  entries : List InstalledDistribution
  unreadable : List (List Char)
deriving DecidableEq

/-- `str::parse::<u8>`: one plus sign may lead. -/
def parseU8 (text : List Char) : Option Nat :=
  let digits := if text.head? = some '+' then text.tail else text
  if digits = [] || !digits.all (fun c ↦ '0' ≤ c && c ≤ '9') then none
  else (some (digits.foldl (fun n c ↦ n * 10 + (c.toNat - '0'.toNat)) 0)).filter (· < 256)

/-- Cut one byte behind the beginning of the last white space; there is no such place where the
white space is longer. -/
def cutAfterSpace (text : List Char) : Option (List Char × List Char) :=
  match text.reverse.dropWhile (!isWhitespace ·) with
  | [] => none
  | c :: before =>
    if c.utf8Size = 1 then
      some ((c :: before).reverse, (text.reverse.takeWhile (!isWhitespace ·)).reverse)
    else none

def splitRow (line : List Char) : Option InstalledDistribution := do
  let withoutMarker := (line.rdropWhile isWhitespace).dropWhile isWhitespace
  let marked := withoutMarker.head? = some '*'
  let rest := if marked then withoutMarker.tail.dropWhile isWhitespace else withoutMarker
  let (beforeVersion, version) ← cutAfterSpace rest
  let version ← parseU8 version
  let (beforeState, state) ← cutAfterSpace (beforeVersion.rdropWhile isWhitespace)
  if state = [] then none
  else
    let name := beforeState.rdropWhile isWhitespace
    if name = [] then none else some ⟨name, state, version, marked⟩

/-- The loop of `DistributionTable::parse`. -/
def parseLines : List (List Char) → DistributionTable
  | [] => ⟨[], []⟩
  | line :: rest =>
    let line := line.rdropWhile (· = '\r')
    let table := parseLines rest
    if trim line = [] then table
    else
      match splitRow line with
      | none => table
      | some row =>
        match validateDistributionName row.name with
        | .error _ => { table with unreadable := trim line :: table.unreadable }
        | .ok () => { table with entries := row :: table.entries }

namespace DistributionTable

def fromConsoleOutput (fromUtf8Lossy : List UInt8 → List Char) (bytes : List UInt8) :
    DistributionTable :=
  parseLines (lines (decodeConsoleOutput fromUtf8Lossy bytes).text)

def exactly (table : DistributionTable) (name : List Char) :
    Except WslError InstalledDistribution := do
  validateDistributionName name
  match table.entries.filter (·.name = name) with
  | [] => .error (.notInstalled name (table.entries.map (·.name)))
  | [found] => .ok found
  | _ => .error (.ambiguousName name)

end DistributionTable

/-! ## What is printed -/

/-- The code units of a character in UTF-16. -/
def encodeUtf16 (c : Char) : List Nat :=
  if c.toNat < 0x10000 then [c.toNat]
  else [0xD800 + (c.toNat - 0x10000) / 0x400, 0xDC00 + (c.toNat - 0x10000) % 0x400]

/-- Code units as bytes, the low byte first. -/
def bytesOf (units : List Nat) : List UInt8 :=
  units.flatMap fun unit ↦ [UInt8.ofNat (unit % 256), UInt8.ofNat (unit / 256)]

theorem fromUtf16Lossy_char (c : Char) (rest : List Nat) :
    fromUtf16Lossy (encodeUtf16 c ++ rest) = c :: fromUtf16Lossy rest := by
  have hvalid : c.toNat < 0xD800 ∨ 0xDFFF < c.toNat ∧ c.toNat < 0x110000 := c.valid
  have hback : Char.ofNat c.toNat = c := Char.ofNat_toNat c
  unfold encodeUtf16
  split_ifs with hshort
  · rw [List.singleton_append, fromUtf16Lossy.eq_def]
    simp only [hback]
    rw [if_pos (by omega)]
  · have hnumber : 0x10000 + (0xD800 + (c.toNat - 0x10000) / 0x400 - 0xD800) * 0x400 +
        (0xDC00 + (c.toNat - 0x10000) % 0x400 - 0xDC00) = c.toNat := by omega
    rw [List.cons_append, List.singleton_append, fromUtf16Lossy.eq_def]
    simp only [hnumber, hback]
    rw [if_neg (by omega), if_neg (by omega), if_pos (by omega)]

theorem fromUtf16Lossy_encoded (text : List Char) :
    fromUtf16Lossy (text.flatMap encodeUtf16) = text := by
  induction text with
  | nil => rfl
  | cons c text ih => rw [List.flatMap_cons, fromUtf16Lossy_char, ih]

theorem unitsOf_bytesOf {units : List Nat} (h : ∀ unit ∈ units, unit < 0x10000) :
    unitsOf (bytesOf units) = units := by
  induction units with
  | nil => rfl
  | cons unit units ih =>
    have hunit := h unit List.mem_cons_self
    have hrest := ih fun other hother ↦ h other (List.mem_cons_of_mem _ hother)
    show ((UInt8.ofNat (unit % 256)).toNat + 256 * (UInt8.ofNat (unit / 256)).toNat) ::
      unitsOf (bytesOf units) = _
    rw [hrest, UInt8.toNat_ofNat', UInt8.toNat_ofNat']
    congr 1
    omega

theorem encodeUtf16_lt (text : List Char) : ∀ unit ∈ text.flatMap encodeUtf16, unit < 0x10000 := by
  intro unit hunit
  obtain ⟨c, -, hc⟩ := List.mem_flatMap.mp hunit
  have hvalid : c.toNat < 0xD800 ∨ 0xDFFF < c.toNat ∧ c.toNat < 0x110000 := c.valid
  unfold encodeUtf16 at hc
  split_ifs at hc <;> simp at hc <;> omega

theorem highBytes_bytesOf (units : List Nat) :
    highBytes (bytesOf units) = units.map fun unit ↦ UInt8.ofNat (unit / 256) := by
  induction units with
  | nil => rfl
  | cons unit units ih => exact congrArg (_ :: ·) ih

theorem length_bytesOf (units : List Nat) : (bytesOf units).length = 2 * units.length := by
  induction units with
  | nil => rfl
  | cons unit units ih =>
    show (bytesOf units).length + 1 + 1 = _
    rw [ih, List.length_cons]
    omega

/-- At least six in ten code units are below 256. -/
def MostlyLow (units : List Nat) : Prop :=
  units.length * 6 ≤ units.countP (· < 256) * 10

instance (units : List Nat) : Decidable (MostlyLow units) := Nat.decLe _ _

theorem looksLike_bytesOf {units : List Nat} (hunits : ∀ unit ∈ units, unit < 0x10000)
    (hnil : units ≠ []) (hlow : MostlyLow units) : looksLikeUtf16le (bytesOf units) = true := by
  have hcount : (highBytes (bytesOf units)).count 0 = units.countP (· < 256) := by
    rw [highBytes_bytesOf, List.count, List.countP_map]
    refine List.countP_congr fun unit hunit ↦ ?_
    have hbound := hunits unit hunit
    simp only [Function.comp_apply, beq_iff_eq, decide_eq_true_eq, ← UInt8.toNat_inj,
      UInt8.toNat_ofNat']
    show unit / 256 % 256 = 0 ↔ _
    omega
  have hpos := List.length_pos_of_ne_nil hnil
  unfold MostlyLow at hlow
  simp only [looksLikeUtf16le, hcount, length_bytesOf, Bool.and_eq_true, decide_eq_true_eq, ne_eq,
    decide_not, Bool.not_eq_true', decide_eq_false_iff_not]
  omega

theorem zero_notMem_utf8 {c : Char} (h : c.toNat ≠ 0) : 0 ∉ String.utf8EncodeChar c := by
  have hvalid : c.toNat < 0xD800 ∨ 0xDFFF < c.toNat ∧ c.toNat < 0x110000 := c.valid
  unfold String.utf8EncodeChar
  show 0 ∉ (if c.toNat ≤ 0x7f then _ else if c.toNat ≤ 0x7ff then _ else
    if c.toNat ≤ 0xffff then _ else _ : List UInt8)
  split_ifs <;> simp [← UInt8.toNat_inj] <;> omega

theorem mem_highBytes {byte : UInt8} (bytes : List UInt8) (h : byte ∈ highBytes bytes) :
    byte ∈ bytes := by
  induction bytes using highBytes.induct with
  | case1 low high rest ih =>
    rcases List.mem_cons.mp h with rfl | h
    · simp
    · exact List.mem_cons_of_mem _ (List.mem_cons_of_mem _ (ih h))
  | case2 bytes hshort => 
      rw [highBytes] at h
      · cases h
      · exact hshort

theorem looksLike_utf8 {text : List Char} (h : ∀ c ∈ text, c.toNat ≠ 0) :
    looksLikeUtf16le (text.flatMap String.utf8EncodeChar) = false := by
  have hcount : (highBytes (text.flatMap String.utf8EncodeChar)).count 0 = 0 := by
    refine List.count_eq_zero.mpr fun hmem ↦ ?_
    obtain ⟨c, hc, hzero⟩ := List.mem_flatMap.mp (mem_highBytes _ hmem)
    exact zero_notMem_utf8 (h c hc) hzero
  simp [looksLikeUtf16le, hcount]

/-- How a text is encoded, and whether a byte-order mark leads. -/
inductive TableEncoding where
  | utf16 (mark : Bool)
  | utf8 (mark : Bool)

def TableEncoding.encode (text : List Char) : TableEncoding → List UInt8
  | utf16 mark => (if mark then [0xFF, 0xFE] else []) ++ bytesOf (text.flatMap encodeUtf16)
  | utf8 mark => (if mark then [0xEF, 0xBB, 0xBF] else []) ++ text.flatMap String.utf8EncodeChar

theorem decodeUtf8_encoded (lossy : List UInt8 → List Char) (text : List Char) :
    (decodeUtf8 lossy (text.flatMap String.utf8EncodeChar)).text = text := by
  have hdecoded : (text.flatMap String.utf8EncodeChar).toByteArray.utf8Decode? =
      some text.toArray := List.utf8Decode?_utf8Encode
  rw [decodeUtf8, hdecoded]

theorem decodeUtf16le_encoded (text : List Char) :
    (decodeUtf16le (bytesOf (text.flatMap encodeUtf16))).text = text := by
  show fromUtf16Lossy (unitsOf (bytesOf (text.flatMap encodeUtf16))) = text
  rw [unitsOf_bytesOf (encodeUtf16_lt text), fromUtf16Lossy_encoded]

/-- A text that begins with an ASCII character and holds no NUL is decoded, where its encoding is
recognised. -/
theorem decode_encoded (lossy : List UInt8 → List Char) {first : Char} {text : List Char}
    (hfirst : first.toNat < 128) (hnul : ∀ c ∈ first :: text, c.toNat ≠ 0)
    (encoding : TableEncoding)
    (hlow : encoding = .utf16 false → MostlyLow ((first :: text).flatMap encodeUtf16)) :
    (decodeConsoleOutput lossy (encoding.encode (first :: text))).text = first :: text := by
  have hdrop (mark rest : List UInt8) : (mark ++ rest).dropPrefix? mark = some rest :=
    List.dropPrefix?_eq_some_iff.mpr ⟨mark, rfl, by simp⟩
  -- A text without a mark begins with the byte of its first character.
  have hunmarked (rest : List UInt8) : decodeConsoleOutput lossy (UInt8.ofNat first.toNat :: rest) =
      if looksLikeUtf16le (UInt8.ofNat first.toNat :: rest) then
        decodeUtf16le (UInt8.ofNat first.toNat :: rest)
      else decodeUtf8 lossy (UInt8.ofNat first.toNat :: rest) := by
    have hnone (mark : UInt8) (more : List UInt8) (hmark : 128 ≤ mark.toNat) :
        (UInt8.ofNat first.toNat :: rest).dropPrefix? (mark :: more) = none := by
      refine Option.eq_none_iff_forall_ne_some.mpr fun found hfound ↦ ?_
      obtain ⟨front, hfront, hsame⟩ := List.dropPrefix?_eq_some_iff.mp hfound
      obtain rfl := eq_of_beq hsame
      have hbyte := congrArg UInt8.toNat (List.cons.inj hfront).1
      rw [UInt8.toNat_ofNat'] at hbyte
      omega
    rw [decodeConsoleOutput, hnone 0xFF _ (by decide), hnone 0xEF _ (by decide)]
  cases encoding with
  | utf16 mark =>
    have hbytes : ∃ rest, bytesOf ((first :: text).flatMap encodeUtf16) =
        UInt8.ofNat first.toNat :: rest := by
      rw [List.flatMap_cons, encodeUtf16, if_pos (by omega)]
      exact ⟨_, congrArg (UInt8.ofNat · :: _)
        (Nat.mod_eq_of_lt (show first.toNat < 256 by omega))⟩
    cases mark with
    | true =>
      rw [decodeConsoleOutput, TableEncoding.encode, if_pos rfl, hdrop]
      exact decodeUtf16le_encoded _
    | false =>
      have hlooks := looksLike_bytesOf (encodeUtf16_lt (first :: text))
        (by simp [encodeUtf16, show first.toNat < 0x10000 by omega]) (hlow rfl)
      show (decodeConsoleOutput lossy (bytesOf _)).text = _
      obtain ⟨rest, hrest⟩ := hbytes
      rw [hrest] at hlooks ⊢
      rw [hunmarked, if_pos hlooks, ← hrest, decodeUtf16le_encoded]
  | utf8 mark =>
    cases mark with
    | true =>
      have hother (rest : List UInt8) :
          (([0xEF, 0xBB, 0xBF] : List UInt8) ++ rest).dropPrefix? [0xFF, 0xFE] = none := by
        rfl
      rw [decodeConsoleOutput, TableEncoding.encode, if_pos rfl, hother, hdrop]
      exact decodeUtf8_encoded lossy _
    | false =>
      have hbytes : (first :: text).flatMap String.utf8EncodeChar =
          UInt8.ofNat first.toNat :: text.flatMap String.utf8EncodeChar := by
        rw [List.flatMap_cons, String.utf8EncodeChar]
        show (if first.toNat ≤ 0x7f then _ else _) ++ _ = _
        rw [if_pos (by omega)]
        rfl
      have hlooks := looksLike_utf8 hnul
      show (decodeConsoleOutput lossy ((first :: text).flatMap String.utf8EncodeChar)).text = _
      rw [hbytes] at hlooks ⊢
      rw [hunmarked, hlooks, if_neg (by simp), ← hbytes, decodeUtf8_encoded]

/-! ## Rows that were printed -/

def IsWord (text : List Char) : Prop :=
  text ≠ [] ∧ ∀ c ∈ text, isWhitespace c = false ∧ isControl c = false

instance (text : List Char) : Decidable (IsWord text) := inferInstanceAs (Decidable (_ ∧ _))

/-- Three columns, a default's mark before them and blanks between them. -/
structure Columns where
  marked : Bool
  name : List Char
  state : List Char
  version : List Char
  afterName : Nat
  afterState : Nat
  named : name ≠ [] ∧ trim name = name ∧ name.head? ≠ some '*' ∧ ∀ c ∈ name, isControl c = false
  words : IsWord state ∧ IsWord version

/-- The columns as they are printed. -/
def Columns.text (row : Columns) : List Char :=
  (if row.marked then ['*', ' '] else [' ', ' ']) ++ row.name ++
    List.replicate (row.afterName + 1) ' ' ++ row.state ++
      List.replicate (row.afterState + 1) ' ' ++ row.version

theorem cutAfterSpace_word (front : List Char) (n : Nat) {word : List Char}
    (hword : ∀ c ∈ word, isWhitespace c = false) :
    cutAfterSpace (front ++ List.replicate (n + 1) ' ' ++ word) =
      some (front ++ List.replicate (n + 1) ' ', word) := by
  have hplain : ∀ c ∈ word.reverse, (!isWhitespace c) = true := fun c hc ↦ by
    simp [hword c (List.mem_reverse.mp hc)]
  have hreverse : (front ++ List.replicate (n + 1) ' ' ++ word).reverse =
      word.reverse ++ ' ' :: (List.replicate n ' ' ++ front.reverse) := by
    simp [List.replicate_succ']
  have hspace : (!isWhitespace ' ') = false := by decide
  rw [cutAfterSpace, hreverse, List.dropWhile_append_of_pos hplain,
    List.takeWhile_append_of_pos hplain]
  simp only [List.dropWhile_cons, List.takeWhile_cons, hspace]
  simp [List.replicate_succ', show ' '.utf8Size = 1 from rfl]

theorem sides_of_trim {text : List Char} (h : trim text = text) :
    text.dropWhile isWhitespace = text ∧ text.rdropWhile isWhitespace = text := by
  have hle := (List.rdropWhile_prefix isWhitespace (text.dropWhile isWhitespace)).length_le
  have hdrop : text.dropWhile isWhitespace = text := by
    refine (List.dropWhile_suffix isWhitespace).eq_of_length_le ?_
    rw [show (text.dropWhile isWhitespace).rdropWhile isWhitespace = text from h] at hle
    exact hle
  rw [trim, hdrop] at h
  exact ⟨hdrop, h⟩

theorem rdropWhile_word (front : List Char) {word : List Char} (hnil : word ≠ [])
    (hword : ∀ c ∈ word, isWhitespace c = false) :
    (front ++ word).rdropWhile isWhitespace = front ++ word := by
  rw [List.rdropWhile_eq_self_iff]
  intro _
  rw [List.getLast_append_of_ne_nil _ hnil]
  simp [hword _ (List.getLast_mem hnil)]

theorem rdropWhile_blanks {text : List Char} (htext : text.rdropWhile isWhitespace = text)
    (n : Nat) : (text ++ List.replicate n ' ').rdropWhile isWhitespace = text := by
  induction n with
  | zero => rw [List.replicate_zero, List.append_nil, htext]
  | succ n ih =>
    rw [List.replicate_succ', ← List.append_assoc,
      List.rdropWhile_concat_pos _ _ _ (show isWhitespace ' ' = true by decide), ih]

/-- A printed row is cut into its columns, if its last one is a number. -/
theorem splitRow_text (row : Columns) : splitRow row.text = (parseU8 row.version).map fun version ↦
    ⟨row.name, row.state, version, row.marked⟩ := by
  obtain ⟨hname, htrim, hstar, -⟩ := row.named
  obtain ⟨⟨hstate, hstates⟩, hversion, hversions⟩ := row.words
  obtain ⟨hstart, hend⟩ := sides_of_trim htrim
  let columns := row.name ++ List.replicate (row.afterName + 1) ' ' ++ row.state ++
    List.replicate (row.afterState + 1) ' ' ++ row.version
  have hcolumns : ∃ c rest, row.name = c :: rest ∧ isWhitespace c = false ∧ c ≠ '*' := by
    obtain ⟨c, rest, hcons⟩ := List.exists_cons_of_ne_nil hname
    refine ⟨c, rest, hcons, ?_, fun heq ↦ hstar (by rw [hcons, heq]; rfl)⟩
    rw [hcons] at hstart
    by_contra hblank
    rw [List.dropWhile_cons_of_pos (by simpa using hblank)] at hstart
    have hlength := (List.dropWhile_suffix isWhitespace (l := rest)).length_le
    rw [hstart, List.length_cons] at hlength
    omega
  obtain ⟨c, rest, hcons, hvisible, hplain⟩ := hcolumns
  have hdropped : columns.dropWhile isWhitespace = columns := by
    show (row.name ++ _ ++ _ ++ _ ++ _).dropWhile isWhitespace = _
    simp [columns, hcons, hvisible]
  have htext : row.text = (if row.marked then ['*', ' '] else [' ', ' ']) ++ columns := by
    simp [Columns.text, columns]
  have hright : row.text.rdropWhile isWhitespace = row.text :=
    rdropWhile_word _ hversion fun c hc ↦ (hversions c hc).1
  have hblank : isWhitespace ' ' = true := by decide
  have hcutVersion := cutAfterSpace_word (row.name ++ List.replicate (row.afterName + 1) ' ' ++
    row.state) row.afterState fun c hc ↦ (hversions c hc).1
  have hcutState := cutAfterSpace_word row.name row.afterName fun c hc ↦ (hstates c hc).1
  have hbefore := rdropWhile_blanks (rdropWhile_word (row.name ++
    List.replicate (row.afterName + 1) ' ') hstate fun c hc ↦ (hstates c hc).1) (row.afterState + 1)
  have hlast := rdropWhile_blanks hend (row.afterName + 1)
  have hhead : columns.head? = some c := by simp [columns, hcons]
  have hfinish : (do
      let (beforeVersion, version) ← cutAfterSpace columns
      let version ← parseU8 version
      let (beforeState, state) ← cutAfterSpace (beforeVersion.rdropWhile isWhitespace)
      if state = [] then none
      else
        let name := beforeState.rdropWhile isWhitespace
        if name = [] then none
        else some (⟨name, state, version, row.marked⟩ : InstalledDistribution)) =
      (parseU8 row.version).map fun version ↦ ⟨row.name, row.state, version, row.marked⟩ := by
    show (cutAfterSpace columns).bind _ = _
    rw [hcutVersion]
    simp only [Option.bind_some]
    cases parseU8 row.version with
    | none => rfl
    | some version =>
      simp only [Option.bind_eq_bind, Option.bind_some, hbefore, hcutState, if_neg hstate, hlast,
        if_neg hname, Option.map_some]
  rw [← hfinish, splitRow, hright, htext]
  cases row.marked with
  | true => simp [hdropped, hblank, show isWhitespace '*' = false by decide]
  | false =>
    simp [hdropped, hblank, hhead, hplain]

/-! ## Tables -/

/-- A row as `wsl.exe` lists it, of a distribution whose name is accepted. -/
structure ListedRow extends Columns where
  number : UInt8
  numbered : version = Nat.toDigits 10 number.toNat
  accepted : validateDistributionName name = .ok ()

def ListedRow.entry (row : ListedRow) : InstalledDistribution :=
  ⟨row.name, row.state, row.number.toNat, row.marked⟩

/-- A heading and rows, each with either line ending. -/
def tableText (carriage : Bool) (heading : Columns) (rows : List ListedRow) : List Char :=
  (heading :: rows.map (·.toColumns)).flatMap fun row ↦
    row.text ++ (if carriage then ['\r'] else []) ++ ['\n']

theorem parseU8_digits (n : Nat) (h : n < 256) : parseU8 (Nat.toDigits 10 n) = some n := by
  have hdigit : ∀ c ∈ Nat.toDigits 10 n, c.isDigit = true := fun c ↦
    Nat.isDigit_of_mem_toDigits (by decide) (by decide)
  have hall : (Nat.toDigits 10 n).all (fun c ↦ '0' ≤ c && c ≤ '9') = true := by
    refine List.all_eq_true.mpr fun c hc ↦ ?_
    simpa [Char.isDigit, Char.le_def] using hdigit c hc
  have hplain : (Nat.toDigits 10 n).head? ≠ some '+' := fun hplus ↦
    absurd (hdigit _ (List.mem_of_head? hplus)) (by decide)
  have hvalue : (Nat.toDigits 10 n).foldl (fun n c ↦ n * 10 + (c.toNat - '0'.toNat)) 0 = n := by
    simp only [Nat.mul_comm _ 10]
    exact Nat.ofDigitChars_toDigits (by decide) (by decide)
  unfold parseU8
  rw [if_neg hplain]
  dsimp only
  rw [hall, hvalue]
  simp [Nat.toDigits_ne_nil, h]

theorem control_notMem (row : Columns) {c : Char} (hc : isControl c = true) : c ∉ row.text := by
  obtain ⟨-, -, -, hname⟩ := row.named
  obtain ⟨⟨-, hstate⟩, -, hversion⟩ := row.words
  have hother (d : Char) (hd : isControl d = false) : c ≠ d := fun heq ↦ by simp [heq, hd] at hc
  have hblank := hother ' ' (by decide)
  have hstar := hother '*' (by decide)
  intro hmem
  simp only [Columns.text, List.mem_append, List.mem_replicate] at hmem
  rcases hmem with ((((hmem | hmem) | hmem) | hmem) | hmem) | hmem
  · cases hmarked : row.marked <;> simp [hmarked, hblank, hstar] at hmem
  · exact hother c (hname c hmem) rfl
  · exact hblank hmem.2
  · exact hother c (hstate c hmem).2 rfl
  · exact hblank hmem.2
  · exact hother c (hversion c hmem).2 rfl

/-- The first line of a table is read as the row that was printed. -/
theorem parseLines_row (row : Columns) (carriage : Bool) (rest : List Char) :
    parseLines (lines (row.text ++ (if carriage then ['\r'] else []) ++ '\n' :: rest)) =
      match splitRow row.text with
      | none => parseLines (lines rest)
      | some read =>
        match validateDistributionName read.name with
        | .error _ => { parseLines (lines rest) with
            unreadable := trim row.text :: (parseLines (lines rest)).unreadable }
        | .ok () => { parseLines (lines rest) with
            entries := read :: (parseLines (lines rest)).entries } := by
  have hnewline := control_notMem row (c := '\n') (by decide)
  have hreturn := control_notMem row (c := '\r') (by decide)
  have hlast : row.text.getLast? ≠ some '\r' := fun h ↦ hreturn (List.mem_of_getLast? h)
  have hline : (stripReturn (row.text ++ if carriage then ['\r'] else [])) = row.text := by
    cases carriage with
    | true => simp [stripReturn]
    | false => simpa using stripReturn_self hlast
  have hkept : row.text.rdropWhile (· = '\r') = row.text := by
    refine List.rdropWhile_eq_self_iff.mpr fun hnil ↦ ?_
    have hend : row.text.getLast hnil ≠ '\r' := fun h ↦ hreturn (h ▸ List.getLast_mem hnil)
    simpa using hend
  have hvisible : trim row.text ≠ [] := by
    obtain ⟨c, word, hcons⟩ := List.exists_cons_of_ne_nil row.words.2.1
    rw [Ne, trim_eq_nil_iff]
    intro hblank
    have hc : c ∈ row.version := hcons ▸ List.mem_cons_self
    have h := hblank c (by simp [Columns.text, hc])
    rw [(row.words.2.2 c hc).1] at h
    cases h
  rw [lines_append (by cases carriage <;> simp [hnewline]), hline, parseLines]
  simp only [hkept, if_neg hvisible]

theorem parse_table (carriage : Bool) (heading : Columns) (rows : List ListedRow)
    (hheading : parseU8 heading.version = none) :
    parseLines (lines (tableText carriage heading rows)) = ⟨rows.map (·.entry), []⟩ := by
  have hrows : parseLines (lines ((rows.map (·.toColumns)).flatMap fun row ↦
      row.text ++ (if carriage then ['\r'] else []) ++ ['\n'])) = ⟨rows.map (·.entry), []⟩ := by
    induction rows with
    | nil => rfl
    | cons row rows ih =>
      have hnumber := parseU8_digits row.number.toNat row.number.toNat_lt
      rw [List.map_cons, List.flatMap_cons, List.append_assoc, List.singleton_append,
        parseLines_row, splitRow_text, row.numbered, hnumber, ih]
      simp only [Option.map_some, row.accepted]
      rfl
  rw [tableText, List.flatMap_cons, List.append_assoc, List.singleton_append, parseLines_row,
    splitRow_text, hheading]
  exact hrows

/-- A table is read as it was printed, and a name that is listed once is found. In UTF-16 without
a byte-order mark the code units have to be mostly low. -/
theorem table_read (fromUtf8Lossy : List UInt8 → List Char) (carriage : Bool) (heading : Columns)
    (rows : List ListedRow) (encoding : TableEncoding)
    (hheading : parseU8 heading.version = none)
    (hlow : encoding = .utf16 false →
      MostlyLow ((tableText carriage heading rows).flatMap encodeUtf16)) :
    let table := DistributionTable.fromConsoleOutput fromUtf8Lossy
      (encoding.encode (tableText carriage heading rows))
    table = ⟨rows.map (·.entry), []⟩ ∧
      ∀ row ∈ rows, (rows.map (·.name)).count row.name = 1 →
        table.exactly row.name = .ok row.entry := by
  have hfirst : ∃ first text, tableText carriage heading rows = first :: text ∧
      first.toNat < 128 := by
    rw [tableText, List.flatMap_cons, Columns.text]
    cases heading.marked with
    | true => exact ⟨'*', _, rfl, by decide⟩
    | false => exact ⟨' ', _, rfl, by decide⟩
  have hnul : ∀ c ∈ tableText carriage heading rows, c.toNat ≠ 0 := by
    intro c hc hzero
    obtain ⟨row, -, hrow⟩ := List.mem_flatMap.mp hc
    obtain rfl : c = '\x00' := by rw [← Char.ofNat_toNat c, hzero]
    cases carriage <;> simp [control_notMem row (c := '\x00') (by decide)] at hrow
  obtain ⟨first, text, htable, hascii⟩ := hfirst
  have hread : DistributionTable.fromConsoleOutput fromUtf8Lossy
      (encoding.encode (tableText carriage heading rows)) = ⟨rows.map (·.entry), []⟩ := by
    rw [DistributionTable.fromConsoleOutput]
    rw [htable] at hnul hlow ⊢
    rw [decode_encoded fromUtf8Lossy hascii hnul encoding hlow, ← htable,
      parse_table carriage heading rows hheading]
  refine ⟨hread, fun row hrow honce ↦ ?_⟩
  have hfound : (rows.map (·.entry)).filter (·.name = row.name) = [row.entry] := by
    have hlength : ((rows.map (·.entry)).filter (·.name = row.name)).length = 1 := by
      rw [← List.countP_eq_length_filter, List.countP_map, ← honce, List.count, List.countP_map]
      refine List.countP_congr fun other _ ↦ ?_
      simp [ListedRow.entry]
    obtain ⟨found, hfound⟩ := List.length_eq_one_iff.mp hlength
    have hmem : row.entry ∈ (rows.map (·.entry)).filter (·.name = row.name) :=
      List.mem_filter.mpr ⟨List.mem_map_of_mem hrow, by simp [ListedRow.entry]⟩
    rw [hfound, List.mem_singleton] at hmem
    rw [hfound, hmem]
  rw [hread, DistributionTable.exactly, row.accepted]
  show (match (rows.map (·.entry)).filter (·.name = row.name) with
    | [] => _ | [found] => _ | _ => _) = _
  rw [hfound]

/-- `  NAME  STATE  VERSION`. -/
def sampleHeading : Columns where
  marked := false
  name := "NAME".toList
  state := "STATE".toList
  version := "VERSION".toList
  afterName := 1
  afterState := 1
  named := by decide
  words := by decide

def stoppedRow (name : List Char) (haccepted : validateDistributionName name = .ok ())
    (hnamed : name ≠ [] ∧ trim name = name ∧ name.head? ≠ some '*' ∧
      ∀ c ∈ name, isControl c = false) : ListedRow where
  marked := true
  name := name
  state := "Stopped".toList
  version := ['2']
  afterName := 1
  afterState := 1
  named := hnamed
  words := by decide
  number := 2
  numbered := rfl
  accepted := haccepted

/-- A distribution whose name has a blank in it. -/
def sampleRow : ListedRow :=
  stoppedRow "Ubuntu 24.04".toList (by decide) (by decide)

theorem table_read_utf16 :
    DistributionTable.fromConsoleOutput (fun _ ↦ [])
        (TableEncoding.encode (tableText true sampleHeading [sampleRow]) (.utf16 false)) =
      ⟨[sampleRow.entry], []⟩ :=
  (table_read (fun _ ↦ []) true sampleHeading [sampleRow] (.utf16 false) (by decide)
    fun _ ↦ by decide).1

/-- A distribution with a long name in another script. -/
def chineseRow : ListedRow :=
  stoppedRow (List.replicate 150 '中') (by decide +kernel) (by decide +kernel)

/-- Its table in UTF-16 without a byte-order mark looks like UTF-8, and no row is read. -/
theorem unread_name :
    DistributionTable.fromConsoleOutput (fun _ ↦ [])
        (TableEncoding.encode (tableText true sampleHeading [chineseRow]) (.utf16 false)) =
      ⟨[], []⟩ := by
  let bytes := TableEncoding.encode (tableText true sampleHeading [chineseRow]) (.utf16 false)
  let text := bytes.map fun byte ↦ Char.ofNat byte.toNat
  have hascii : bytes = text.flatMap String.utf8EncodeChar := by decide +kernel
  have hdecoded : decodeConsoleOutput (fun _ ↦ []) bytes = decodeUtf8 (fun _ ↦ []) bytes := by
    have hmark : bytes.dropPrefix? [0xFF, 0xFE] = none := by decide
    have hmark' : bytes.dropPrefix? [0xEF, 0xBB, 0xBF] = none := by decide
    have hlooks : looksLikeUtf16le bytes = false := by decide +kernel
    rw [decodeConsoleOutput, hmark, hmark', hlooks, if_neg (by decide)]
  show parseLines (lines (decodeConsoleOutput (fun _ ↦ []) bytes).text) = _
  rw [hdecoded, hascii, decodeUtf8_encoded]
  decide +kernel

end RunnerManager.Platform.Wsl
