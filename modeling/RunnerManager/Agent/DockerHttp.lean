import RunnerManager.Lib.Result
import RunnerManager.Lib.Streams
import RunnerManager.Lib.Text

/-!
# HTTP framing of the Docker proxy

`agent/src/docker_cleanup/http.rs`: `Head::read` takes the head of a message byte by byte up to
its blank line, and `Head::body` its body, by length or in chunks. A stream is the list of the
bytes to come, and a failed read of it is its end. Read `body_iff` first: what `body` accepts, as
a grammar of the bytes it takes. `framed_iff` then says which streams are framed as RFC 9112 has
it, and names the others.
-/

namespace RunnerManager.Agent.DockerHttp

open Text (isWhitespace isAsciiAlphanumeric isAsciiHexdigit foldAscii trim)
open Streams (readUntil readExact EndsAt)

abbrev Bytes := List UInt8

abbrev HttpError := String

def maxJson : ℕ := 8 * 1024 * 1024

def maxHeaders : ℕ := 32 * 1024

/-- The error of a stream that ended too early. -/
def endOfStream : HttpError := "failed to fill whole buffer"

/-- Carriage return and line feed. -/
def crlf : Bytes := [13, 10]

def fromUtf8 (bytes : Bytes) : Option (List Char) :=
  (String.fromUTF8? ⟨bytes.toArray⟩).map String.toList

/-! ## Numbers -/

/-- The value of a digit in a radix of at most sixteen. -/
def digitOf (radix : ℕ) (c : Char) : Option ℕ :=
  let value :=
    if '0' ≤ c ∧ c ≤ '9' then some (c.toNat - '0'.toNat)
    else if 'a' ≤ c ∧ c ≤ 'f' then some (c.toNat - 'a'.toNat + 10)
    else if 'A' ≤ c ∧ c ≤ 'F' then some (c.toNat - 'A'.toNat + 10)
    else none
  value.filter (· < radix)

/-- The number that digits stand for. -/
def valueOf (radix : ℕ) (values : List ℕ) : ℕ :=
  values.foldl (fun total digit ↦ radix * total + digit) 0

/-- `usize::from_str_radix` and `usize::from_str`: one plus sign may come first. -/
def parseUsize (radix : ℕ) (text : List Char) : Except HttpError ℕ :=
  let digits := if text.head? = some '+' then text.drop 1 else text
  if text = [] then .error "cannot parse integer from empty string"
  else if digits = [] then .error "invalid digit found in string"
  else
    match digits.mapM (digitOf radix) with
    | none => .error "invalid digit found in string"
    | some values =>
      if valueOf radix values < 2 ^ 64 then .ok (valueOf radix values)
      else .error "number too large to fit in target type"

/-! ## Heads -/

structure Head where
  first : List Char
  headers : List (List Char × List Char)
deriving DecidableEq

/-- `str::split` at every line end. -/
def splitLines : List Char → List (List Char)
  | '\r' :: '\n' :: rest => [] :: splitLines rest
  | c :: rest =>
    match splitLines rest with
    | line :: others => (c :: line) :: others
    | [] => [[c]]
  | [] => [[]]

/-- `str::split_once` at a character. -/
def splitOnce (separator : Char) (text : List Char) : Option (List Char × List Char) :=
  if separator ∈ text then
    some (text.takeWhile (· ≠ separator), (text.dropWhile (· ≠ separator)).drop 1)
  else none

/-- The name of a header line and what stands after its colon. -/
def readField (line : List Char) : Except HttpError (List Char × List Char) :=
  match splitOnce ':' line with
  | none => .error "invalid HTTP header"
  | some (name, value) =>
    if name = [] || name.any fun c ↦ !isAsciiAlphanumeric c && c ≠ '-' then
      .error "invalid HTTP header name"
    else .ok (name, value)

def trimmed (field : List Char × List Char) : List Char × List Char :=
  (field.1, trim field.2)

/-- The start line and the fields of a block. -/
def readFields (block : Bytes) :
    Except HttpError (List Char × List (List Char × List Char)) :=
  match fromUtf8 block with
  | none => .error "invalid utf-8 sequence"
  | some text =>
    match splitLines (text.take (text.length - 4)) with
    | [] => .error "missing HTTP start line"
    | first :: lines => do
      let fields ← lines.mapM readField
      return (first, fields)

/-- The loop of `Head::read`: the bytes up to the first blank line. -/
def readBlock (stream : Bytes) : Except HttpError (Bytes × Bytes) :=
  readUntil (crlf ++ crlf) maxHeaders endOfStream "Docker HTTP headers too large" [] stream

def named (name : String) (fields : List (List Char × List Char)) : List (List Char) :=
  (fields.filter fun field ↦ foldAscii field.1 == foldAscii name.toList).map (·.2)

namespace Head

def read (stream : Bytes) : Except HttpError (Head × Bytes) := do
  let (block, rest) ← readBlock stream
  let (first, fields) ← readFields block
  return (⟨first, fields.map trimmed⟩, rest)

def get (head : Head) (name : String) : Option (List Char) :=
  (named name head.headers).head?

end Head

/-! ## Bodies -/

def readLine (limit : ℕ) (stream : Bytes) : Except HttpError (Bytes × Bytes) := do
  let (taken, rest) ← readUntil crlf limit endOfStream "HTTP line too large" [] stream
  let line := taken.take (taken.length - 2)
  if (fromUtf8 line).isSome then return (line, rest) else .error "invalid utf-8 sequence"

/-- What stands before the extensions of a chunk's line. -/
def sizeText (line : Bytes) : List Char :=
  (line.takeWhile (· ≠ 59)).map fun byte ↦ Char.ofNat byte.toNat

theorem readLine_iff {limit : ℕ} {stream line rest : Bytes} :
    readLine limit stream = .ok (line, rest) ↔
      stream = line ++ crlf ++ rest ∧ EndsAt crlf (line ++ crlf) ∧ line.length + 2 ≤ limit ∧
        (fromUtf8 line).isSome := by
  unfold readLine
  rw [Result.bind_eq_ok]
  constructor
  · rintro ⟨⟨taken, after⟩, htaken, h⟩
    obtain ⟨rfl, hends, hlimit⟩ := (Streams.readUntil_iff (by decide)).mp htaken
    dsimp only at h
    split_ifs at h with hutf8
    cases h
    obtain ⟨front, rfl⟩ := hends.1
    have htake : (front ++ crlf).take ((front ++ crlf).length - 2) = front := by
      simp [crlf]
    rw [htake] at hutf8 ⊢
    exact ⟨rfl, hends, by simpa [crlf] using hlimit, hutf8⟩
  · rintro ⟨rfl, hends, hlimit, hutf8⟩
    refine ⟨(line ++ crlf, rest), (Streams.readUntil_iff (by decide)).mpr
      ⟨rfl, hends, by simpa [crlf] using hlimit⟩, ?_⟩
    have htake : (line ++ crlf).take ((line ++ crlf).length - 2) = line := by
      simp [crlf]
    dsimp only
    rw [htake, if_pos hutf8]
    rfl

theorem readLine_shorter {limit : ℕ} {stream line rest : Bytes}
    (h : readLine limit stream = .ok (line, rest)) : rest.length < stream.length := by
  obtain ⟨rfl, -⟩ := readLine_iff.mp h
  simp only [List.length_append, crlf, List.length_cons, List.length_nil]
  omega

/-- The loop of `body` over the trailers; `total` is their length so far. -/
def readTrailers (total : ℕ) (stream : Bytes) : Except HttpError Bytes :=
  match h : readLine maxHeaders stream with
  | .error e => .error e
  | .ok (trailer, rest) =>
    if maxHeaders < total + (trailer.length + 2) then .error "HTTP trailers too large"
    else if trailer = [] then .ok rest
    else readTrailers (total + (trailer.length + 2)) rest
termination_by stream.length
decreasing_by exact readLine_shorter h

/-- One chunk, its size being known: its bytes and the stream after its end. -/
def readChunk (size : ℕ) (stream : Bytes) : Except HttpError (Bytes × Bytes) := do
  let (chunk, rest) ← readExact endOfStream size stream
  let (ending, rest) ← readExact endOfStream 2 rest
  if ending ≠ crlf then .error "invalid HTTP chunk ending" else return (chunk, rest)

theorem readChunk_iff {size : ℕ} {stream chunk rest : Bytes} :
    readChunk size stream = .ok (chunk, rest) ↔
      stream = chunk ++ crlf ++ rest ∧ chunk.length = size := by
  unfold readChunk
  rw [Result.bind_eq_ok]
  constructor
  · rintro ⟨⟨taken, after⟩, htaken, h⟩
    obtain ⟨rfl, hsize⟩ := Streams.readExact_iff.mp htaken
    obtain ⟨⟨ending, last⟩, hending, hlast⟩ := Result.bind_eq_ok.mp h
    obtain ⟨rfl, -⟩ := Streams.readExact_iff.mp hending
    obtain ⟨hcrlf, hlast⟩ := Result.ite_error_eq_ok.mp hlast
    cases hlast
    rw [not_not.mp hcrlf, List.append_assoc]
    exact ⟨rfl, hsize⟩
  · rintro ⟨rfl, rfl⟩
    refine ⟨(chunk, crlf ++ rest),
      Streams.readExact_iff.mpr ⟨List.append_assoc chunk crlf rest, rfl⟩, ?_⟩
    refine Result.bind_eq_ok.mpr ⟨(crlf, rest), Streams.readExact_iff.mpr ⟨rfl, rfl⟩, ?_⟩
    exact Result.ite_error_eq_ok.mpr ⟨by simp, rfl⟩

/-- One pass of the loop of `body` over the chunks: the body so far, and whether it is whole. -/
def readPart (body stream : Bytes) : Except HttpError (Bytes × Bytes × Bool) := do
  let (line, rest) ← readLine 128 stream
  let size ← parseUsize 16 (sizeText line)
  if maxJson - body.length < size then .error "Docker JSON too large"
  else if size = 0 then
    let rest ← readTrailers 0 rest
    return (body, rest, true)
  else
    let (chunk, rest) ← readChunk size rest
    return (body ++ chunk, rest, false)

theorem readPart_more {body stream result rest : Bytes} :
    readPart body stream = .ok (result, rest, false) ↔ ∃ line after chunk,
      readLine 128 stream = .ok (line, after) ∧
        parseUsize 16 (sizeText line) = .ok chunk.length ∧ chunk ≠ [] ∧
        chunk.length ≤ maxJson - body.length ∧ after = chunk ++ crlf ++ rest ∧
        result = body ++ chunk := by
  constructor
  · intro h
    obtain ⟨⟨line, after⟩, hline, h⟩ := Result.bind_eq_ok.mp h
    obtain ⟨size, hsize, h⟩ := Result.bind_eq_ok.mp h
    obtain ⟨hlarge, h⟩ := Result.ite_error_eq_ok.mp h
    split_ifs at h with hzero
    · obtain ⟨_, -, h⟩ := Result.bind_eq_ok.mp h
      cases h
    · obtain ⟨⟨chunk, last⟩, hchunk, h⟩ := Result.bind_eq_ok.mp h
      cases h
      obtain ⟨hafter, rfl⟩ := readChunk_iff.mp hchunk
      refine ⟨line, after, chunk, hline, hsize, ?_, by omega, hafter, rfl⟩
      rintro rfl
      exact hzero rfl
  · rintro ⟨line, after, chunk, hline, hsize, hne, hfits, rfl, rfl⟩
    refine Result.bind_eq_ok.mpr ⟨_, hline, Result.bind_eq_ok.mpr ⟨_, hsize, ?_⟩⟩
    refine Result.ite_error_eq_ok.mpr ⟨by omega, ?_⟩
    rw [if_neg fun hzero ↦ hne (List.length_eq_zero_iff.mp hzero)]
    exact Result.bind_eq_ok.mpr ⟨(chunk, rest), readChunk_iff.mpr ⟨rfl, rfl⟩, rfl⟩

theorem readPart_last {body stream result rest : Bytes} :
    readPart body stream = .ok (result, rest, true) ↔ ∃ line after,
      readLine 128 stream = .ok (line, after) ∧ parseUsize 16 (sizeText line) = .ok 0 ∧
        readTrailers 0 after = .ok rest ∧ result = body := by
  constructor
  · intro h
    obtain ⟨⟨line, after⟩, hline, h⟩ := Result.bind_eq_ok.mp h
    obtain ⟨size, hsize, h⟩ := Result.bind_eq_ok.mp h
    obtain ⟨-, h⟩ := Result.ite_error_eq_ok.mp h
    split_ifs at h with hzero
    · obtain ⟨_, htrailers, h⟩ := Result.bind_eq_ok.mp h
      cases h
      exact ⟨line, after, hline, hzero ▸ hsize, htrailers, rfl⟩
    · obtain ⟨_, -, h⟩ := Result.bind_eq_ok.mp h
      cases h
  · rintro ⟨line, after, hline, hsize, htrailers, rfl⟩
    refine Result.bind_eq_ok.mpr ⟨_, hline, Result.bind_eq_ok.mpr ⟨_, hsize, ?_⟩⟩
    refine Result.ite_error_eq_ok.mpr ⟨by omega, ?_⟩
    rw [if_pos rfl]
    exact Result.bind_eq_ok.mpr ⟨rest, htrailers, rfl⟩

theorem readPart_shorter {body stream result rest : Bytes}
    (h : readPart body stream = .ok (result, rest, false)) : rest.length < stream.length := by
  obtain ⟨line, after, chunk, hline, -, -, -, rfl, -⟩ := readPart_more.mp h
  have hshorter := readLine_shorter hline
  simp only [List.length_append] at hshorter
  omega

/-- The loop of `body` over the chunks; `body` is what was read before. -/
def readChunks (body stream : Bytes) : Except HttpError (Bytes × Bytes) :=
  match h : readPart body stream with
  | .error e => .error e
  | .ok (longer, rest, true) => .ok (longer, rest)
  | .ok (longer, rest, false) =>
    have := readPart_shorter h
    readChunks longer rest
termination_by stream.length

/-- `Head::body`: the body, and what is left of the stream. -/
def Head.body (head : Head) (stream : Bytes) : Except HttpError (Bytes × Bytes) :=
  let lengths := named "Content-Length" head.headers
  if 1 < lengths.length ∨ lengths ≠ [] ∧ (head.get "Transfer-Encoding").isSome then
    .error "ambiguous HTTP framing"
  else
    match head.get "Transfer-Encoding" with
    | some encoding =>
      if foldAscii encoding ≠ "chunked".toList then .error "unsupported HTTP encoding"
      else readChunks [] stream
    | none => do
      let size ← parseUsize 10 ((head.get "Content-Length").getD ['0'])
      if maxJson < size then .error "Docker JSON too large"
      else readExact endOfStream size stream

/-- `Head::read` and then `Head::body`. -/
def readMessage (stream : Bytes) : Except HttpError (Head × Bytes × Bytes) := do
  let (head, rest) ← Head.read stream
  let (body, rest) ← head.body rest
  return (head, body, rest)

/-! ## Messages as grammars -/

/-- A plain number: digits only. -/
def Plain (radix : ℕ) (text : List Char) (n : ℕ) : Prop :=
  text ≠ [] ∧ ∃ values, text.mapM (digitOf radix) = some values ∧ valueOf radix values = n

/-- A number as the standard library reads it. -/
def Spelled (radix : ℕ) (text : List Char) (n : ℕ) : Prop :=
  parseUsize radix text = .ok n

/-- A chunk's line: a size, in some spelling, and extensions, of which there may be many. -/
structure SizeLine (Number : List Char → ℕ → Prop) (line : Bytes) (size : ℕ) : Prop where
  ends : EndsAt crlf (line ++ crlf)
  text : (fromUtf8 line).isSome
  number : Number (sizeText line) size

/-- A line of a chunk that `read_line` takes. -/
def Fits (line : Bytes) : Prop := line.length + 2 ≤ 128

/-- The trailers, up to the empty line. -/
def Trailers (bytes : Bytes) : Prop :=
  ∃ lines : List Bytes, bytes = lines.flatMap (· ++ crlf) ++ crlf ∧ bytes.length ≤ maxHeaders ∧
    ∀ line ∈ lines, line ≠ [] ∧ EndsAt crlf (line ++ crlf) ∧ (fromUtf8 line).isSome

/-- A body in chunks: the bytes of the body, and those that carry it. -/
inductive Encodes (Line : Bytes → ℕ → Prop) : Bytes → Bytes → Prop where
  | last {line trailers} : Line line 0 → Trailers trailers →
      Encodes Line [] (line ++ crlf ++ trailers)
  | chunk {line chunk body enc} : Line line chunk.length → chunk ≠ [] → Encodes Line body enc →
      Encodes Line (chunk ++ body) (line ++ crlf ++ (chunk ++ crlf ++ enc))

/-- The lines that `body` takes. -/
def Taken (line : Bytes) (size : ℕ) : Prop :=
  SizeLine (Spelled 16) line size ∧ Fits line

/-! ### Trailers and chunks -/

theorem endsAt_crlf : EndsAt crlf ([] ++ crlf) := by
  constructor
  · exact List.suffix_refl crlf
  · decide

section

variable {total size : ℕ} {stream rest line body enc result : Bytes} {text : List Char} {n : ℕ}

/-- One pass of the loop over the trailers. -/
theorem readTrailers_step :
    readTrailers total stream = .ok rest ↔ ∃ trailer after,
      readLine maxHeaders stream = .ok (trailer, after) ∧
        total + (trailer.length + 2) ≤ maxHeaders ∧
        (trailer = [] ∧ after = rest ∨
          trailer ≠ [] ∧ readTrailers (total + (trailer.length + 2)) after = .ok rest) := by
  rw [readTrailers]
  split
  · next e hline =>
    rw [hline]
    simp
  · next trailer after hline =>
    rw [hline]
    by_cases hlarge : maxHeaders < total + (trailer.length + 2)
    · rw [if_pos hlarge]
      simp only [Except.ok.injEq, Prod.mk.injEq, reduceCtorEq, false_iff]
      rintro ⟨_, _, ⟨rfl, rfl⟩, hfits, -⟩
      omega
    · rw [if_neg hlarge]
      simp only [Except.ok.injEq, Prod.mk.injEq]
      by_cases hempty : trailer = []
      · rw [if_pos hempty, Except.ok.injEq]
        constructor
        · rintro rfl
          exact ⟨_, _, ⟨rfl, rfl⟩, by omega, .inl ⟨hempty, rfl⟩⟩
        · rintro ⟨_, _, ⟨rfl, rfl⟩, -, ⟨-, hrest⟩ | ⟨hother, -⟩⟩
          · exact hrest
          · exact absurd hempty hother
      · rw [if_neg hempty]
        constructor
        · exact fun h ↦ ⟨_, _, ⟨rfl, rfl⟩, by omega, .inr ⟨hempty, h⟩⟩
        · rintro ⟨_, _, ⟨rfl, rfl⟩, -, ⟨hother, -⟩ | ⟨-, h⟩⟩
          · exact absurd hother hempty
          · exact h

theorem readTrailers_iff :
    readTrailers total stream = .ok rest ↔
      ∃ lines : List Bytes, stream = lines.flatMap (· ++ crlf) ++ crlf ++ rest ∧
        total + (lines.flatMap (· ++ crlf) ++ crlf).length ≤ maxHeaders ∧
        ∀ line ∈ lines, line ≠ [] ∧ EndsAt crlf (line ++ crlf) ∧ (fromUtf8 line).isSome := by
  constructor
  · intro h
    induction hlength : stream.length using Nat.strong_induction_on generalizing stream total with
    | h length ih =>
      obtain ⟨trailer, after, hline, htotal, hnext⟩ := readTrailers_step.mp h
      obtain ⟨rfl, hends, -, hutf8⟩ := readLine_iff.mp hline
      obtain ⟨rfl, rfl⟩ | ⟨hne, hnext⟩ := hnext
      · exact ⟨[], by simp, by simpa [crlf] using htotal, by simp⟩
      · obtain ⟨lines, rfl, hlines, hall⟩ :=
          ih after.length (hlength ▸ readLine_shorter hline) hnext rfl
        refine ⟨trailer :: lines, by simp, ?_, ?_⟩
        · simp only [List.flatMap_cons, List.length_append, crlf, List.length_cons,
            List.length_nil] at hlines ⊢
          omega
        · rw [List.forall_mem_cons]
          exact ⟨⟨hne, hends, hutf8⟩, hall⟩
  · rintro ⟨lines, rfl, htotal, hall⟩
    induction lines generalizing total with
    | nil =>
      have hline : readLine maxHeaders (crlf ++ rest) = .ok ([], rest) :=
        readLine_iff.mpr ⟨rfl, endsAt_crlf, by decide, by decide⟩
      exact readTrailers_step.mpr ⟨[], rest, hline, by simpa [crlf] using htotal, .inl ⟨rfl, rfl⟩⟩
    | cons line lines ih =>
      rw [List.forall_mem_cons] at hall
      obtain ⟨⟨hne, hends, hutf8⟩, hall⟩ := hall
      simp only [List.flatMap_cons, List.length_append, crlf, List.length_cons,
        List.length_nil] at htotal
      have hline : readLine maxHeaders ((line :: lines).flatMap (· ++ crlf) ++ crlf ++ rest) =
          .ok (line, lines.flatMap (· ++ crlf) ++ crlf ++ rest) :=
        readLine_iff.mpr ⟨by simp, hends, by omega, hutf8⟩
      refine readTrailers_step.mpr ⟨line, _, hline, by omega, .inr ⟨hne, ih ?_ hall⟩⟩
      simp only [List.length_append, crlf, List.length_cons, List.length_nil]
      omega

theorem readTrailers_zero_iff :
    readTrailers 0 stream = .ok rest ↔ ∃ bytes, stream = bytes ++ rest ∧ Trailers bytes := by
  rw [readTrailers_iff]
  constructor
  · rintro ⟨lines, rfl, htotal, hall⟩
    exact ⟨_, rfl, lines, rfl, by omega, hall⟩
  · rintro ⟨_, rfl, lines, rfl, htotal, hall⟩
    exact ⟨lines, rfl, by omega, hall⟩

theorem readChunks_step :
    readChunks body stream = .ok (result, rest) ↔
      readPart body stream = .ok (result, rest, true) ∨ ∃ longer after,
        readPart body stream = .ok (longer, after, false) ∧
          readChunks longer after = .ok (result, rest) := by
  rw [readChunks]
  split
  · next e hpart =>
    rw [hpart]
    simp
  · next longer after hpart =>
    rw [hpart]
    simp
  · next longer after hpart => simp [hpart]

theorem taken_of_readLine {after : Bytes} (hline : readLine 128 stream = .ok (line, after))
    (hsize : parseUsize 16 (sizeText line) = .ok size) :
    stream = line ++ crlf ++ after ∧ Taken line size := by
  obtain ⟨rfl, hends, hlimit, hutf8⟩ := readLine_iff.mp hline
  exact ⟨rfl, ⟨hends, hutf8, hsize⟩, hlimit⟩

theorem readLine_of_taken (h : Taken line size) (after : Bytes) :
    readLine 128 (line ++ crlf ++ after) = .ok (line, after) :=
  readLine_iff.mpr ⟨rfl, h.1.ends, h.2, h.1.text⟩

theorem readChunks_iff (hbody : body.length ≤ maxJson) :
    readChunks body stream = .ok (result, rest) ↔ ∃ added enc, stream = enc ++ rest ∧
      result = body ++ added ∧ Encodes Taken added enc ∧ result.length ≤ maxJson := by
  constructor
  · intro h
    induction hlength : stream.length using Nat.strong_induction_on generalizing stream body with
    | h length ih =>
      obtain hpart | ⟨longer, after, hpart, hnext⟩ := readChunks_step.mp h
      · obtain ⟨line, after, hline, hsize, htrailers, rfl⟩ := readPart_last.mp hpart
        obtain ⟨rfl, htaken⟩ := taken_of_readLine hline hsize
        obtain ⟨bytes, rfl, hbytes⟩ := readTrailers_zero_iff.mp htrailers
        exact ⟨[], _, by simp, by simp, .last htaken hbytes, hbody⟩
      · have hshorter := readPart_shorter hpart
        obtain ⟨line, _, chunk, hline, hsize, hne, hfits, rfl, rfl⟩ := readPart_more.mp hpart
        obtain ⟨rfl, htaken⟩ := taken_of_readLine hline hsize
        have hlonger : (body ++ chunk).length ≤ maxJson := by
          rw [List.length_append]
          omega
        obtain ⟨added, enc, rfl, rfl, henc, hresult⟩ :=
          ih after.length (hlength ▸ hshorter) hlonger hnext rfl
        exact ⟨chunk ++ added, _, by simp, by simp, .chunk htaken hne henc, hresult⟩
  · rintro ⟨added, enc, rfl, rfl, henc, hresult⟩
    induction henc generalizing body with
    | @last line trailers hline htrailers =>
      refine readChunks_step.mpr (.inl (readPart_last.mpr ?_))
      refine ⟨line, trailers ++ rest, ?_, ?_, ?_, ?_⟩
      · rw [List.append_assoc]
        exact readLine_of_taken hline _
      · exact hline.1.number
      · exact readTrailers_zero_iff.mpr ⟨trailers, rfl, htrailers⟩
      · exact List.append_nil body
    | @chunk line chunk added enc hline hne henc ih =>
      rw [← List.append_assoc] at hresult
      have hlonger : (body ++ chunk).length ≤ maxJson := by
        rw [List.length_append] at hresult
        omega
      have hbytes : line ++ crlf ++ (chunk ++ crlf ++ enc) ++ rest =
          line ++ crlf ++ (chunk ++ crlf ++ (enc ++ rest)) := by simp
      rw [hbytes, ← List.append_assoc body]
      refine readChunks_step.mpr (.inr ⟨body ++ chunk, enc ++ rest, ?_, ih hlonger hresult⟩)
      refine readPart_more.mpr ⟨line, chunk ++ crlf ++ (enc ++ rest), chunk, ?_,
        hline.1.number, hne, ?_, rfl, rfl⟩
      · exact readLine_of_taken hline _
      · rw [List.length_append] at hlonger
        omega

end

/-! ### Numbers and spaces -/

section

variable {radix n m : ℕ} {text value : List Char}

theorem digitOf_plus : digitOf radix '+' = none := by
  rfl

theorem digitOf_visible {c : Char} {digit : ℕ} (h : digitOf radix c = some digit) :
    isWhitespace c = false := by
  have hdigit : isAsciiHexdigit c = true := by
    unfold digitOf at h
    dsimp only at h
    split_ifs at h with hten hlower hupper
    · simp [isAsciiHexdigit, hten]
    · simp [isAsciiHexdigit, hlower]
    · simp [isAsciiHexdigit, hupper]
    · cases h
  exact Text.ascii_induction (P := fun c ↦ isAsciiHexdigit c = true → isWhitespace c = false)
    (by decide) (Text.hexdigit_ascii hdigit) hdigit

theorem Plain.unsigned (h : Plain radix text n) : text.head? ≠ some '+' := by
  obtain ⟨hne, values, hvalues, -⟩ := h
  cases text with
  | nil => exact absurd rfl hne
  | cons c text =>
    intro hsign
    obtain rfl : c = '+' := by simpa using hsign
    rw [List.mapM_cons, digitOf_plus] at hvalues
    cases hvalues

theorem Plain.spelled (h : Plain radix text n) (hn : n < 2 ^ 64) : Spelled radix text n := by
  have hsign := h.unsigned
  obtain ⟨hne, values, hvalues, rfl⟩ := h
  unfold Spelled parseUsize
  simp only [if_neg hsign, if_neg hne, hvalues, if_pos hn]

theorem plain_or_signed (h : Spelled radix text n) :
    Plain radix text n ∨ text.head? = some '+' := by
  by_cases hsign : text.head? = some '+'
  · exact .inr hsign
  · left
    unfold Spelled parseUsize at h
    simp only [if_neg hsign] at h
    split_ifs at h with hnil
    split at h
    · cases h
    · next values hvalues =>
      split_ifs at h
      cases h
      exact ⟨hnil, values, hvalues, rfl⟩

theorem Plain.unique (h : Plain radix text n) (hspelled : Spelled radix text m) : n = m := by
  obtain ⟨-, values, hvalues, rfl⟩ := (plain_or_signed hspelled).resolve_right h.unsigned
  obtain ⟨-, others, hothers, rfl⟩ := h
  rw [hvalues] at hothers
  cases hothers
  rfl

/-- The white space that may stand around a field's value. -/
def isOws (c : Char) : Bool := c == ' ' || c == '\t'

/-- A field's value, without that white space. -/
def ows (value : List Char) : List Char :=
  (value.dropWhile isOws).rdropWhile isOws

theorem isOws_whitespace {c : Char} (h : isOws c = true) : isWhitespace c = true := by
  simp only [isOws, Bool.or_eq_true, beq_iff_eq] at h
  obtain rfl | rfl := h <;> rfl

theorem trim_eq_ows (h : ∀ c ∈ ows value, isWhitespace c = false) : trim value = ows value := by
  have hfront := List.takeWhile_append_dropWhile (p := isOws) (l := value)
  have hback := List.takeWhile_append_dropWhile (p := isOws)
    (l := (value.dropWhile isOws).reverse)
  have hparts : value.takeWhile isOws ++
      (ows value ++ ((value.dropWhile isOws).reverse.takeWhile isOws).reverse) = value := by
    rw [ows, List.rdropWhile, ← List.reverse_append, hback, List.reverse_reverse, hfront]
  conv_lhs => rw [← hparts]
  refine Text.trim_padded (fun c hc ↦ isOws_whitespace (List.mem_takeWhile_imp hc)) h ?_
  exact fun c hc ↦ isOws_whitespace (List.mem_takeWhile_imp (List.mem_reverse.mp hc))

theorem Plain.visible (h : Plain radix text n) : ∀ c ∈ text, isWhitespace c = false := by
  obtain ⟨-, values, hvalues, -⟩ := h
  induction text generalizing values with
  | nil => exact fun c hc ↦ absurd hc List.not_mem_nil
  | cons first text ih =>
    rw [List.mapM_cons] at hvalues
    obtain ⟨digit, hdigit, hvalues⟩ := Option.bind_eq_some_iff.mp hvalues
    obtain ⟨digits, hdigits, -⟩ := Option.bind_eq_some_iff.mp hvalues
    rw [List.forall_mem_cons]
    exact ⟨digitOf_visible hdigit, ih digits hdigits⟩

theorem chunked_visible (h : foldAscii text = "chunked".toList) :
    ∀ c ∈ text, isWhitespace c = false := by
  intro c hc
  have hall : ∀ c ∈ "chunked".toList, isWhitespace c = false := by decide
  rw [← Text.isWhitespace_toLower]
  exact hall _ (h ▸ List.mem_map_of_mem hc)

end

/-! ### Heads and bodies -/

/-- A head at the front of a stream: its start line, and its fields before trimming. -/
structure HeadAt (stream : Bytes) (first : List Char) (fields : List (List Char × List Char))
    (rest : Bytes) : Prop where
  block : ∃ block, stream = block ++ rest ∧ EndsAt (crlf ++ crlf) block ∧
    block.length ≤ maxHeaders ∧ readFields block = .ok (first, fields)

/-- How a head frames a body. -/
inductive Carries (Number : List Char → ℕ → Prop) (Line : Bytes → ℕ → Prop)
    (headers : List (List Char × List Char)) : Bytes → Bytes → Prop where
  | chunked {encoding others body enc} :
      named "Content-Length" headers = [] →
      named "Transfer-Encoding" headers = encoding :: others →
      foldAscii encoding = "chunked".toList → Encodes Line body enc →
      Carries Number Line headers body enc
  | length {value body} : named "Transfer-Encoding" headers = [] →
      named "Content-Length" headers = [value] → Number value body.length →
      Carries Number Line headers body body
  | empty : named "Transfer-Encoding" headers = [] → named "Content-Length" headers = [] →
      Carries Number Line headers [] []

section

variable {stream rest body : Bytes} {first : List Char}
  {fields headers : List (List Char × List Char)} {head : Head}

theorem read_iff : Head.read stream = .ok (head, rest) ↔
    ∃ first fields, HeadAt stream first fields rest ∧ head = ⟨first, fields.map trimmed⟩ := by
  unfold Head.read
  rw [Result.bind_eq_ok]
  constructor
  · rintro ⟨⟨block, after⟩, hblock, h⟩
    obtain ⟨hstream, hends, hlimit⟩ := (Streams.readUntil_iff (by decide)).mp hblock
    obtain ⟨⟨first, fields⟩, hfields, h⟩ := Result.bind_eq_ok.mp h
    cases h
    exact ⟨first, fields, ⟨block, hstream, hends, hlimit, hfields⟩, rfl⟩
  · rintro ⟨first, fields, ⟨block, rfl, hends, hlimit, hfields⟩, rfl⟩
    have hblock : readBlock (block ++ rest) = .ok (block, rest) :=
      (Streams.readUntil_iff (by decide)).mpr ⟨rfl, hends, hlimit⟩
    exact ⟨_, hblock, Result.bind_eq_ok.mpr ⟨_, hfields, rfl⟩⟩

theorem HeadAt.unique {first' : List Char} {fields' : List (List Char × List Char)}
    {rest' : Bytes} (h : HeadAt stream first fields rest)
    (h' : HeadAt stream first' fields' rest') :
    first = first' ∧ fields = fields' ∧ rest = rest' := by
  obtain ⟨block, hstream, hends, -, hfields⟩ := h
  obtain ⟨block', hstream', hends', -, hfields'⟩ := h'
  obtain ⟨rfl, rfl⟩ := Streams.endsAt_unique (by decide) (hstream.symm.trans hstream') hends hends'
  rw [hfields, Except.ok.injEq, Prod.mk.injEq] at hfields'
  exact ⟨hfields'.1, hfields'.2, rfl⟩

@[simp]
theorem named_trimmed (name : String) (fields : List (List Char × List Char)) :
    named name (fields.map trimmed) = (named name fields).map trim := by
  simp [named, trimmed, List.filter_map, Function.comp_def]

theorem body_iff : head.body stream = .ok (body, rest) ↔ ∃ enc, stream = enc ++ rest ∧
    Carries (Spelled 10) Taken head.headers body enc ∧ body.length ≤ maxJson := by
  unfold Head.body Head.get
  dsimp only
  cases hencodings : named "Transfer-Encoding" head.headers with
  | cons encoding others =>
    simp only [List.head?_cons, Option.isSome_some, and_true]
    by_cases hlengths : named "Content-Length" head.headers = []
    · rw [hlengths, if_neg (by simp)]
      by_cases hchunked : foldAscii encoding = "chunked".toList
      · rw [if_neg (not_not.mpr hchunked), readChunks_iff (by decide)]
        constructor
        · rintro ⟨added, enc, rfl, rfl, henc, hlength⟩
          exact ⟨enc, rfl, .chunked hlengths hencodings hchunked henc, hlength⟩
        · rintro ⟨enc, rfl, hcarries, hlength⟩
          cases hcarries with
          | chunked _ _ _ henc => exact ⟨body, enc, rfl, rfl, henc, hlength⟩
          | length hnone _ _ => simp [hencodings] at hnone
          | empty hnone _ => simp [hencodings] at hnone
      · rw [if_pos hchunked]
        constructor
        · intro h
          cases h
        · rintro ⟨enc, -, hcarries, -⟩
          cases hcarries with
          | chunked _ hsame heq _ =>
            rw [hencodings, List.cons.injEq] at hsame
            exact absurd (hsame.1 ▸ heq) hchunked
          | length hnone _ _ => simp [hencodings] at hnone
          | empty hnone _ => simp [hencodings] at hnone
    · rw [if_pos (.inr hlengths)]
      constructor
      · intro h
        cases h
      · rintro ⟨enc, -, hcarries, -⟩
        cases hcarries with
        | chunked hnone _ _ _ => exact absurd hnone hlengths
        | length hnone _ _ => simp [hencodings] at hnone
        | empty hnone _ => simp [hencodings] at hnone
  | nil =>
    simp only [List.head?_nil, Option.isSome_none, Bool.false_eq_true, and_false, or_false]
    cases hlengths : named "Content-Length" head.headers with
    | nil =>
      have hzero : parseUsize 10 ['0'] = .ok 0 := by rfl
      simp only [List.head?_nil, Option.getD_none, hzero]
      rw [if_neg (by simp)]
      show readExact endOfStream 0 stream = .ok (body, rest) ↔ _
      constructor
      · intro h
        obtain ⟨hstream, hlength⟩ := Streams.readExact_iff.mp h
        obtain rfl := List.length_eq_zero_iff.mp hlength
        exact ⟨[], hstream, .empty hencodings hlengths, by decide⟩
      · rintro ⟨enc, rfl, hcarries, -⟩
        cases hcarries with
        | chunked _ hsome _ _ => simp [hencodings] at hsome
        | length _ hsome _ => simp [hlengths] at hsome
        | empty _ _ => exact Streams.readExact_iff.mpr ⟨rfl, rfl⟩
    | cons value values =>
      cases values with
      | cons second values =>
        rw [if_pos (by simp)]
        constructor
        · intro h
          cases h
        · rintro ⟨enc, -, hcarries, -⟩
          cases hcarries with
          | chunked hnone _ _ _ => simp [hlengths] at hnone
          | length _ hone _ => simp [hlengths] at hone
          | empty _ hnone => simp [hlengths] at hnone
      | nil =>
        rw [if_neg (by simp), Result.bind_eq_ok]
        constructor
        · rintro ⟨size, hsize, h⟩
          obtain ⟨hlarge, h⟩ := Result.ite_error_eq_ok.mp h
          obtain ⟨hstream, rfl⟩ := Streams.readExact_iff.mp h
          exact ⟨body, hstream, .length hencodings hlengths hsize, by omega⟩
        · rintro ⟨enc, rfl, hcarries, hlength⟩
          cases hcarries with
          | chunked hnone _ _ _ => simp [hlengths] at hnone
          | length _ hone hnumber =>
            rw [hlengths, List.cons.injEq] at hone
            refine ⟨body.length, hone.1 ▸ hnumber, ?_⟩
            exact Result.ite_error_eq_ok.mpr
              ⟨by omega, Streams.readExact_iff.mpr ⟨rfl, rfl⟩⟩
          | empty _ hnone => simp [hlengths] at hnone

theorem readMessage_iff : readMessage stream = .ok (head, body, rest) ↔
    ∃ first fields enc, HeadAt stream first fields (enc ++ rest) ∧
      head = ⟨first, fields.map trimmed⟩ ∧
      Carries (Spelled 10) Taken head.headers body enc ∧ body.length ≤ maxJson := by
  unfold readMessage
  rw [Result.bind_eq_ok]
  constructor
  · rintro ⟨⟨found, after⟩, hread, h⟩
    obtain ⟨⟨taken, last⟩, hbody, h⟩ := Result.bind_eq_ok.mp h
    cases h
    obtain ⟨first, fields, hhead, rfl⟩ := read_iff.mp hread
    obtain ⟨enc, rfl, hcarries, hlength⟩ := body_iff.mp hbody
    exact ⟨first, fields, enc, hhead, rfl, hcarries, hlength⟩
  · rintro ⟨first, fields, enc, hhead, rfl, hcarries, hlength⟩
    refine ⟨_, read_iff.mpr ⟨first, fields, hhead, rfl⟩, ?_⟩
    exact Result.bind_eq_ok.mpr ⟨_, body_iff.mpr ⟨enc, rfl, hcarries, hlength⟩, rfl⟩

end

/-! ## What the framing is to be -/

abbrev PlainLine : Bytes → ℕ → Prop := SizeLine (Plain 16)

/-- A chunk's line of a stream, after chunks of plain sizes, is of a kind. -/
inductive SizeAt (Kind : Bytes → Prop) : Bytes → Prop where
  | here {line rest} : EndsAt crlf (line ++ crlf) → Kind line → SizeAt Kind (line ++ crlf ++ rest)
  | later {line chunk rest} : PlainLine line chunk.length → chunk ≠ [] → SizeAt Kind rest →
      SizeAt Kind (line ++ crlf ++ (chunk ++ crlf ++ rest))

/-- A chunk size that is not plain hex digits. -/
def Bad (line : Bytes) : Prop := ∀ n, ¬ Plain 16 (sizeText line) n

/-- Framing that RFC 9112 calls ambiguous or invalid. -/
inductive InvalidFraming (fields : List (List Char × List Char)) (rest : Bytes) : Prop where
  | lengths : 1 < (named "Content-Length" fields).length → InvalidFraming fields rest
  | length {value} : value ∈ named "Content-Length" fields → (∀ n, ¬ Plain 10 (ows value) n) →
      InvalidFraming fields rest
  | both : named "Content-Length" fields ≠ [] → named "Transfer-Encoding" fields ≠ [] →
      InvalidFraming fields rest
  | encodings : 1 < (named "Transfer-Encoding" fields).length → InvalidFraming fields rest
  | encoding {value} : value ∈ named "Transfer-Encoding" fields →
      foldAscii (ows value) ≠ "chunked".toList → InvalidFraming fields rest
  | chunk : named "Transfer-Encoding" fields ≠ [] → SizeAt Bad rest → InvalidFraming fields rest

/-- A message that RFC 9112 frames, of a body that is small enough. -/
structure ValidMessage (stream : Bytes) (head : Head) (body rest : Bytes) : Prop where
  carried : ∃ enc, Head.read stream = .ok (head, enc ++ rest) ∧
    Carries (Plain 10) PlainLine head.headers body enc
  one : (named "Transfer-Encoding" head.headers).length ≤ 1
  small : body.length ≤ maxJson

/-- A stream is framed as it is to be. -/
structure Framed (stream : Bytes) : Prop where
  exact : ∀ head body rest, readMessage stream = .ok (head, body, rest) →
    ∃ block enc, stream = block ++ enc ++ rest ∧ Head.read block = .ok (head, []) ∧
      Carries (Spelled 10) Taken head.headers body enc
  bounded : ∀ head body rest, readMessage stream = .ok (head, body, rest) →
    body.length ≤ maxJson
  whole : ∀ head body rest, ValidMessage stream head body rest →
    readMessage stream = .ok (head, body, rest)
  refused : ∀ first fields rest, HeadAt stream first fields rest → InvalidFraming fields rest →
    ∃ e, readMessage stream = .error e

/-- What the standard library takes and the grammar does not. -/
inductive Slip (fields : List (List Char × List Char)) (rest : Bytes) : Prop where
  | encodings : 1 < (named "Transfer-Encoding" fields).length → Slip fields rest
  | signed {value} : value ∈ named "Content-Length" fields → (trim value).head? = some '+' →
      Slip fields rest
  | space {value} :
      value ∈ named "Content-Length" fields ∨ value ∈ named "Transfer-Encoding" fields →
      trim value ≠ ows value → Slip fields rest
  | chunk : named "Transfer-Encoding" fields ≠ [] →
      SizeAt (fun line ↦ (sizeText line).head? = some '+') rest → Slip fields rest

/-- A stream that begins with a whole message, but for a second transfer encoding, a plus sign
before a size, or other white space than spaces and tabs around a value. -/
def Slipped (stream : Bytes) : Prop :=
  ∃ first fields body enc rest, HeadAt stream first fields (enc ++ rest) ∧
    Carries (Spelled 10) Taken (fields.map trimmed) body enc ∧ body.length ≤ maxJson ∧
    Slip fields (enc ++ rest)

/-- A stream that begins with a message with a longer chunk line than `read_line` takes. -/
def Overlong (stream : Bytes) : Prop :=
  ∃ head body rest after, Head.read stream = .ok (head, after) ∧
    ValidMessage stream head body rest ∧ named "Transfer-Encoding" head.headers ≠ [] ∧
    SizeAt (fun line ↦ ¬ Fits line) after

section

variable {stream rest body enc line : Bytes} {Kind Kind' : Bytes → Prop} {first : List Char}
  {fields headers : List (List Char × List Char)} {head : Head} {value : List Char}

/-! ### Chunk lines -/

theorem SizeAt.mono (h : SizeAt Kind stream) (hkind : ∀ line, Kind line → Kind' line) :
    SizeAt Kind' stream := by
  induction h with
  | here hends hline => exact .here hends (hkind _ hline)
  | later hline hne _ ih => exact .later hline hne ih

theorem not_sizeAt_false : ¬ SizeAt (fun _ ↦ False) stream := by
  intro h
  induction h with
  | here _ hline => exact hline
  | later _ _ _ ih => exact ih

theorem sizeAt_cons {after : Bytes} (hends : EndsAt crlf (line ++ crlf)) :
    SizeAt Kind (line ++ crlf ++ after) ↔ Kind line ∨ ∃ chunk rest,
      PlainLine line chunk.length ∧ chunk ≠ [] ∧ after = chunk ++ crlf ++ rest ∧
        SizeAt Kind rest := by
  have hfirst {other tail : Bytes} (hother : EndsAt crlf (other ++ crlf))
      (hsame : other ++ crlf ++ tail = line ++ crlf ++ after) : other = line ∧ tail = after := by
    obtain ⟨hline, htail⟩ := Streams.endsAt_unique (by decide) hsame hother hends
    exact ⟨List.append_cancel_right hline, htail⟩
  constructor
  · intro h
    generalize hstream : line ++ crlf ++ after = stream at h
    cases h with
    | here hother hkind =>
      obtain ⟨rfl, -⟩ := hfirst hother hstream.symm
      exact .inl hkind
    | later hplain hne hrest =>
      obtain ⟨rfl, rfl⟩ := hfirst hplain.ends hstream.symm
      exact .inr ⟨_, _, hplain, hne, rfl, hrest⟩
  · rintro (hkind | ⟨chunk, rest, hplain, hne, rfl, hrest⟩)
    · exact .here hends hkind
    · exact .later hplain hne hrest

theorem SizeAt.of_taken (henc : Encodes Taken body enc) (h : SizeAt Kind (enc ++ rest))
    (hkind : ∀ line size, Taken line size → Kind line → Kind' line) :
    SizeAt Kind' (enc ++ rest) := by
  induction henc with
  | @last line trailers hline htrailers =>
    rw [List.append_assoc] at h ⊢
    obtain hfirst | ⟨chunk, after, hplain, hne, -, -⟩ := (sizeAt_cons hline.1.ends).mp h
    · exact .here hline.1.ends (hkind _ _ hline hfirst)
    · exact absurd (List.length_eq_zero_iff.mp (hplain.number.unique hline.1.number)) hne
  | @chunk line chunk body enc hline hne henc ih =>
    have hbytes : line ++ crlf ++ (chunk ++ crlf ++ enc) ++ rest =
        line ++ crlf ++ (chunk ++ crlf ++ (enc ++ rest)) := by simp
    rw [hbytes] at h ⊢
    obtain hfirst | ⟨other, after, hplain, hother, hsame, hafter⟩ :=
      (sizeAt_cons hline.1.ends).mp h
    · exact .here hline.1.ends (hkind _ _ hline hfirst)
    · -- the line states one size, so that the chunks are the same
      have hlength := hplain.number.unique hline.1.number
      simp only [List.append_assoc] at hsame
      obtain ⟨rfl, htail⟩ := List.append_inj hsame hlength.symm
      obtain rfl := List.append_cancel_left htail
      exact .later hplain hother (ih hafter)

theorem taken_of_plain (rest : Bytes) (henc : Encodes PlainLine body enc)
    (hsmall : body.length ≤ maxJson)
    (hfits : ¬ SizeAt (fun line ↦ ¬ Fits line) (enc ++ rest)) : Encodes Taken body enc := by
  have hbound : maxJson < 2 ^ 64 := by decide
  induction henc with
  | @last line trailers hline htrailers =>
    rw [List.append_assoc, sizeAt_cons hline.ends, not_or, not_not] at hfits
    exact .last ⟨⟨hline.ends, hline.text, hline.number.spelled (by decide)⟩, hfits.1⟩ htrailers
  | @chunk line chunk body enc hline hne henc ih =>
    have hbytes : line ++ crlf ++ (chunk ++ crlf ++ enc) ++ rest =
        line ++ crlf ++ (chunk ++ crlf ++ (enc ++ rest)) := by simp
    rw [hbytes, sizeAt_cons hline.ends, not_or, not_not] at hfits
    rw [List.length_append] at hsmall
    refine .chunk ⟨⟨hline.ends, hline.text, hline.number.spelled (by omega)⟩, hfits.1⟩ hne ?_
    exact ih (by omega) fun h ↦ hfits.2 ⟨chunk, enc ++ rest, hline, hne, rfl, h⟩

/-! ### Fields -/

theorem trim_of_plain {n : ℕ} (h : Plain 10 (ows value) n) : trim value = ows value :=
  trim_eq_ows h.visible

theorem trim_of_chunked (h : foldAscii (ows value) = "chunked".toList) :
    trim value = ows value :=
  trim_eq_ows (chunked_visible h)

theorem invalid_of_slip (h : Slip fields rest) : InvalidFraming fields rest := by
  cases h with
  | encodings hcount => exact .encodings hcount
  | signed hvalue hsign =>
    exact .length hvalue fun n hplain ↦ hplain.unsigned (trim_of_plain hplain ▸ hsign)
  | space hvalue hspace =>
    obtain hvalue | hvalue := hvalue
    · exact .length hvalue fun n hplain ↦ hspace (trim_of_plain hplain)
    · exact .encoding hvalue fun hchunked ↦ hspace (trim_of_chunked hchunked)
  | chunk hencoding hsigned =>
    exact .chunk hencoding (hsigned.mono fun line hsign n hplain ↦ hplain.unsigned hsign)

theorem slip_of_invalid (hinvalid : InvalidFraming fields (enc ++ rest))
    (hcarries : Carries (Spelled 10) Taken (fields.map trimmed) body enc) :
    Slip fields (enc ++ rest) := by
  cases hcarries with
  | @chunked encoding others body enc hlengths hencodings hchunked henc =>
    rw [named_trimmed, List.map_eq_nil_iff] at hlengths
    rw [named_trimmed] at hencodings
    cases hinvalid with
    | lengths hcount => simp [hlengths] at hcount
    | length hvalue _ => simp [hlengths] at hvalue
    | both hsome _ => exact absurd hlengths hsome
    | encodings hcount => exact .encodings hcount
    | @encoding value hvalue hother =>
      by_cases hcount : 1 < (named "Transfer-Encoding" fields).length
      · exact .encodings hcount
      · refine .space (.inr hvalue) fun hsame ↦ hother ?_
        obtain ⟨first, tail, hfields⟩ := List.exists_cons_of_ne_nil (List.ne_nil_of_mem hvalue)
        rw [hfields, List.length_cons] at hcount
        obtain rfl := List.length_eq_zero_iff.mp (by omega : tail.length = 0)
        rw [hfields, List.mem_singleton] at hvalue
        rw [hfields, List.map_singleton, List.cons.injEq] at hencodings
        rw [← hsame, hvalue, hencodings.1, hchunked]
    | chunk hencoding hbad =>
      refine .chunk hencoding (hbad.of_taken henc fun line size htaken hline ↦ ?_)
      exact (plain_or_signed htaken.1.number).resolve_left (hline size)
  | @length value body hencodings hlengths hnumber =>
    rw [named_trimmed, List.map_eq_nil_iff] at hencodings
    rw [named_trimmed, List.map_eq_singleton_iff] at hlengths
    obtain ⟨raw, hfields, rfl⟩ := hlengths
    cases hinvalid with
    | lengths hcount => simp [hfields] at hcount
    | @length value hvalue hother =>
      have hmem := hvalue
      rw [hfields, List.mem_singleton] at hvalue
      subst hvalue
      by_cases hsame : trim value = ows value
      · refine .signed hmem ?_
        exact (plain_or_signed hnumber).resolve_left (hsame ▸ hother _)
      · exact .space (.inl hmem) hsame
    | both _ hsome => exact absurd hencodings hsome
    | encodings hcount => simp [hencodings] at hcount
    | encoding hvalue _ => simp [hencodings] at hvalue
    | chunk hsome _ => exact absurd hencodings hsome
  | empty hencodings hlengths =>
    rw [named_trimmed, List.map_eq_nil_iff] at hencodings hlengths
    cases hinvalid with
    | lengths hcount => simp [hlengths] at hcount
    | length hvalue _ => simp [hlengths] at hvalue
    | both hsome _ => exact absurd hlengths hsome
    | encodings hcount => simp [hencodings] at hcount
    | encoding hvalue _ => simp [hencodings] at hvalue
    | chunk hsome _ => exact absurd hencodings hsome

end

/-- A stream is framed as it is to be if and only if it does not begin with a message that slips
through the standard library, or that has a longer chunk line than is taken. -/
theorem framed_iff (stream : Bytes) : Framed stream ↔ ¬ Slipped stream ∧ ¬ Overlong stream := by
  constructor
  · intro hframed
    constructor
    · rintro ⟨first, fields, body, enc, rest, hhead, hcarries, hsmall, hslip⟩
      have hread : readMessage stream = .ok (⟨first, fields.map trimmed⟩, body, rest) :=
        readMessage_iff.mpr ⟨first, fields, enc, hhead, rfl, hcarries, hsmall⟩
      obtain ⟨e, herror⟩ := hframed.refused first fields _ hhead (invalid_of_slip hslip)
      rw [hread] at herror
      cases herror
    · rintro ⟨head, body, rest, after, hread, hvalid, hencoding, hlong⟩
      obtain ⟨first, fields, enc, hhead, rfl, hcarries, -⟩ :=
        readMessage_iff.mp (hframed.whole head body rest hvalid)
      obtain ⟨_, _, hfound, hsame⟩ := read_iff.mp hread
      obtain ⟨-, -, rfl⟩ := hfound.unique hhead
      cases hcarries with
      | chunked _ _ _ henc =>
        exact not_sizeAt_false (hlong.of_taken henc fun line size htaken hline ↦ hline htaken.2)
      | length hnone _ _ => exact absurd hnone hencoding
      | empty hnone _ => exact absurd hnone hencoding
  · rintro ⟨hslipped, hoverlong⟩
    refine ⟨?_, ?_, ?_, ?_⟩
    · intro head body rest hread
      obtain ⟨first, fields, enc, ⟨block, hstream, hends, hlimit, hfields⟩, rfl, hcarries, -⟩ :=
        readMessage_iff.mp hread
      refine ⟨block, enc, by rw [hstream, List.append_assoc], ?_, hcarries⟩
      exact read_iff.mpr ⟨first, fields, ⟨block, by simp, hends, hlimit, hfields⟩, rfl⟩
    · intro head body rest hread
      obtain ⟨_, _, _, -, -, -, hsmall⟩ := readMessage_iff.mp hread
      exact hsmall
    · intro head body rest hvalid
      obtain ⟨enc, hread, hcarries⟩ := hvalid.carried
      obtain ⟨first, fields, hhead, rfl⟩ := read_iff.mp hread
      refine readMessage_iff.mpr ⟨first, fields, enc, hhead, rfl, ?_, hvalid.small⟩
      have hbound : maxJson < 2 ^ 64 := by decide
      have hsmall := hvalid.small
      cases hcarries with
      | chunked hlengths hencodings hchunked henc =>
        refine .chunked hlengths hencodings hchunked ?_
        refine taken_of_plain rest henc hsmall fun hlong ↦ ?_
        exact hoverlong ⟨_, _, _, _, hread, hvalid, by simp [hencodings], hlong⟩
      | length hencodings hlengths hnumber =>
        exact .length hencodings hlengths (hnumber.spelled (by omega))
      | empty hencodings hlengths => exact .empty hencodings hlengths
    · intro first fields after hhead hinvalid
      cases hread : readMessage stream with
      | error e => exact ⟨e, rfl⟩
      | ok message =>
        obtain ⟨head, body, rest⟩ := message
        obtain ⟨_, _, enc, hfound, rfl, hcarries, hsmall⟩ := readMessage_iff.mp hread
        obtain ⟨rfl, rfl, rfl⟩ := hhead.unique hfound
        exact absurd ⟨_, _, body, enc, rest, hhead, hcarries, hsmall,
          slip_of_invalid hinvalid hcarries⟩ hslipped

def ascii (text : String) : Bytes :=
  text.toList.map fun c ↦ UInt8.ofNat c.toNat

def signedRequest : Bytes :=
  ascii "POST / HTTP/1.1\r\nContent-Length: +1\r\n\r\n"

theorem readFields_of_lines {block : Bytes} {text first : List Char} {lines : List (List Char)}
    {fields : List (List Char × List Char)} (htext : fromUtf8 block = some text)
    (hlines : splitLines (text.take (text.length - 4)) = first :: lines)
    (hfields : lines.mapM readField = .ok fields) : readFields block = .ok (first, fields) := by
  unfold readFields
  rw [htext]
  dsimp only
  rw [hlines]
  exact Result.bind_eq_ok.mpr ⟨fields, hfields, rfl⟩

theorem readFields_signed : readFields signedRequest =
    .ok ("POST / HTTP/1.1".toList, [("Content-Length".toList, " +1".toList)]) := by
  have htext : fromUtf8 signedRequest =
      some "POST / HTTP/1.1\r\nContent-Length: +1\r\n\r\n".toList := by
    rw [signedRequest, ascii, String.toList_ofList]
    decide
  have hlines : splitLines ("POST / HTTP/1.1\r\nContent-Length: +1\r\n\r\n".toList.take 35) =
      ["POST / HTTP/1.1".toList, "Content-Length: +1".toList] := by
    rw [String.toList_ofList, String.toList_ofList, String.toList_ofList]
    decide
  refine readFields_of_lines htext hlines ?_
  rw [String.toList_ofList, String.toList_ofList, String.toList_ofList]
  decide

/-- A length with a sign is taken, though it is not digits. -/
theorem signed_length_taken :
    readMessage (signedRequest ++ ascii "xyz") =
      .ok (⟨"POST / HTTP/1.1".toList, [("Content-Length".toList, "+1".toList)]⟩,
        ascii "x", ascii "yz") ∧
      ¬ Framed (signedRequest ++ ascii "xyz") := by
  have hhead : HeadAt (signedRequest ++ ascii "xyz") "POST / HTTP/1.1".toList
      [("Content-Length".toList, " +1".toList)] (ascii "xyz") := by
    refine ⟨signedRequest, rfl, ?_, ?_, readFields_signed⟩
    · rw [signedRequest, ascii, String.toList_ofList]
      exact ⟨by decide, by decide⟩
    · rw [signedRequest, ascii, String.toList_ofList]
      decide
  have hread : readMessage (signedRequest ++ ascii "xyz") =
      .ok (⟨"POST / HTTP/1.1".toList, [("Content-Length".toList, "+1".toList)]⟩,
        ascii "x", ascii "yz") := by
    have hblock : readBlock (signedRequest ++ ascii "xyz") = .ok (signedRequest, ascii "xyz") := by
      rw [signedRequest, ascii, ascii, String.toList_ofList, String.toList_ofList]
      decide
    have hbody : Head.body ⟨"POST / HTTP/1.1".toList, [("Content-Length".toList, "+1".toList)]⟩
        (ascii "xyz") = .ok (ascii "x", ascii "yz") := by
      decide
    refine Result.bind_eq_ok.mpr ⟨(_, ascii "xyz"), Result.bind_eq_ok.mpr ⟨_, hblock, ?_⟩,
      Result.bind_eq_ok.mpr ⟨_, hbody, rfl⟩⟩
    refine Result.bind_eq_ok.mpr ⟨_, readFields_signed, ?_⟩
    decide
  refine ⟨hread, fun hframed ↦ ?_⟩
  have hinvalid : InvalidFraming [("Content-Length".toList, " +1".toList)] (ascii "xyz") :=
    .length (by decide : " +1".toList ∈ _) fun n hplain ↦ hplain.unsigned (by decide)
  obtain ⟨e, herror⟩ := hframed.refused _ _ _ hhead hinvalid
  rw [hread] at herror
  cases herror

end RunnerManager.Agent.DockerHttp
