import RunnerManager.Lib.Slices

/-!
# Redacting log text

`redact` of `crates/platform/src/logging.rs`. A text is cut into words, a word at its URLs and its
structural characters, and each piece is judged by its key or by its shape. A slice at an offset
that is no character boundary is a fault, and so is one activation of `redactCore` more than
`levels` allows, and a turn of a loop more than its text has characters.
-/

namespace RunnerManager.Platform.Redaction

open RunnerManager.Text

/-! ## Characters -/

def redaction : List Char := "[redacted]".toList

def pathRedaction : List Char := "[path]".toList

def credentialKeys : List (List Char) :=
  ["access.token", "api.key", "apikey", "auth", "authorization", "client.secret", "cookie",
    "credential", "encoded.jit.config", "jit", "jit.config", "jitconfig", "password",
    "private.token", "proxy.authorization", "refresh.token", "secret", "set.cookie", "token",
    "www.authenticate", "x.api.key", "x.auth.token", "x.github.token", "x.hub.signature",
    "x.hub.signature.256"].map String.toList

def schemeWords : List (List Char) :=
  ["basic", "bearer", "digest", "negotiate", "token"].map String.toList

def tokenPrefixes : List (List Char) :=
  ["ghp_", "gho_", "ghu_", "ghs_", "ghr_", "github_pat_", "gh_"].map String.toList

def opaqueRunThreshold : Nat := 40

def isOpaqueChar (c : Char) : Bool :=
  isAsciiAlphanumeric c || c == '+' || c == '/' || c == '=' || c == '_' || c == '-'

def wrappers : List Char :=
  ['"', '\'', '`', '(', ')', '[', ']', '{', '}', '<', '>', ',', ';', '.', '!', '?']

/-- The character is one of `WRAPPERS`. -/
def isWrapper (c : Char) : Bool :=
  wrappers.contains c

def structural : List Char :=
  [',', ';', '{', '}', '[', ']', '<', '>', '&']

/-- The character is one of `STRUCTURAL`. -/
def isStructural (c : Char) : Bool :=
  structural.contains c

/-! ## Keys -/

def trimKey (key : List Char) : List Char :=
  let trimmed := trim key
  (trimmed.dropWhile fun c ↦ c == '\\' || isWrapper c).rdropWhile fun c ↦ c == '\\' || isWrapper c

def normaliseKey (key : List Char) : List Char :=
  (foldAscii (trimKey key)).map fun c ↦ if c == '-' || c == '_' then '.' else c

def isCredentialKey (key : List Char) : Bool :=
  credentialKeys.contains (normaliseKey key)

def isSchemeWord (word : List Char) : Bool :=
  schemeWords.contains (foldAscii word)

/-! ## Slices -/

/-- What would end a redaction with a panic, or not end it. -/
inductive Fault where
  | boundary
  | depth
  | endless
deriving DecidableEq

/-- A computation that may meet a fault. -/
abbrev Scrub := Except Fault

/-- A split at a byte offset. -/
def cut (n : Nat) (text : List Char) : Scrub (List Char × List Char) :=
  match splitAt? n text with
  | some parts => .ok parts
  | none => .error .boundary

/-- The first byte of a slice, as a character. -/
def firstByte : List Char → Scrub Char
  | [] => .error .boundary
  | c :: _ => .ok c

/-- `split_trailing_whitespace`: the offset is that of the last character. -/
def splitTrailingWhitespace (chunk : List Char) : Scrub (List Char × List Char) :=
  match chunk.getLast? with
  | some last =>
    if isWhitespace last then cut (byteLen chunk - last.utf8Size) chunk else .ok (chunk, [])
  | none => .ok (chunk, [])

/-- `trim_start_wrappers`: wrappers, and a backslash that a wrapper follows, until neither is
left. -/
def trimStartWrappers : List Char → List Char
  | [] => []
  | c :: rest =>
    if isWrapper c || (c == '\\' && rest.head?.any isWrapper) then trimStartWrappers rest
    else c :: rest

/-- `trim_end_wrappers`: wrappers and backslashes, until neither is left. -/
def trimEndWrappers (piece : List Char) : List Char :=
  piece.rdropWhile fun c ↦ isWrapper c || c == '\\'

/-- A piece and the punctuation around it. -/
structure Wrapped where
  lead : List Char
  core : List Char
  trail : List Char
deriving DecidableEq

def splitWrappers (piece : List Char) : Scrub Wrapped := do
  let (lead, rest) ← cut (byteLen piece - byteLen (trimStartWrappers piece)) piece
  let (core, trail) ← cut (byteLen (trimEndWrappers rest)) rest
  return ⟨lead, core, trail⟩

/-! ## Shapes -/

def sha256HexLen : Nat := 64

def digestPrefixLen : Nat := 12

/-- A digit, or a lowercase hexadecimal letter. -/
def isDigestChar (c : Char) : Bool :=
  (decide ('0' ≤ c) && decide (c ≤ '9')) || (decide ('a' ≤ c) && decide (c ≤ 'f'))

def isDigest (value : List Char) : Bool :=
  byteLen value == sha256HexLen && value.all isDigestChar

def asSha256Digest (value : List Char) : Scrub (Option (List Char)) :=
  if isDigest value then do
    let (front, _) ← cut digestPrefixLen value
    return some ("sha256:".toList ++ front ++ ['…'])
  else return none

def looksLikeJwt (value : List Char) : Bool :=
  decide (opaqueRunThreshold ≤ byteLen value) && "eyJ".toList.isPrefixOf value &&
    (value.splitOn '.').all (·.all isOpaqueChar) &&
    decide (2 ≤ (value.splitOn '.').length) && decide ((value.splitOn '.').length ≤ 3)

def isAsciiAlphabetic (c : Char) : Bool :=
  (decide ('a' ≤ c) && decide (c ≤ 'z')) || (decide ('A' ≤ c) && decide (c ≤ 'Z'))

/-- The value begins with a drive. -/
def hasDrive : List Char → Bool
  | letter :: ':' :: slash :: _ => isAsciiAlphabetic letter && (slash == '\\' || slash == '/')
  | _ => false

/-- The value begins with a slash and has another one. -/
def isRooted : List Char → Bool
  | '/' :: rest => rest.contains '/'
  | _ => false

def looksLikePath (value : List Char) : Bool :=
  hasDrive value || ['\\', '\\'].isPrefixOf value || ['~', '/'].isPrefixOf value ||
    ['~', '\\'].isPrefixOf value || isRooted value

/-- The value begins as a GitHub token. -/
def hasTokenPrefix (value : List Char) : Bool :=
  tokenPrefixes.any (·.isPrefixOf (foldAscii value))

def isOpaqueRun (value : List Char) : Bool :=
  decide (opaqueRunThreshold ≤ byteLen value) && value.all isOpaqueChar

def redactValue (value : List Char) : Scrub (List Char) :=
  if hasTokenPrefix value then return redaction
  else if looksLikePath value then return pathRedaction
  else do
    match ← asSha256Digest value with
    | some digest => return digest
    | none => return if looksLikeJwt value || isOpaqueRun value then redaction else value

/-! ## URLs -/

def isSchemeByte (c : Char) : Bool :=
  isAsciiAlphanumeric c || c == '+' || c == '-' || c == '.'

def isUrlTerminator (c : Char) : Bool :=
  isWhitespace c || ['"', ',', '{', '}', '[', ']', '<', '>'].contains c

def isUrlHeadTerminator (c : Char) : Bool :=
  isUrlTerminator c || c == ';' || c == '&'

/-- What begins a query or a fragment. -/
def isQueryMark (c : Char) : Bool :=
  c == '?' || c == '#'

def schemeMark : List Char := "://".toList

/-- The text before a URL, its scheme, the URL without it, and the text after it. -/
structure UrlCut where
  lead : List Char
  scheme : List Char
  url : List Char
  rest : List Char
deriving DecidableEq

def schemeRun (text : List Char) : List Char :=
  text.rtakeWhile isSchemeByte

/-- Where the URL ends in the text after its scheme. -/
def urlEnd (after : List Char) : Scrub Nat := do
  let end' := (findBy isUrlTerminator after).getD (byteLen after)
  let (url, _) ← cut end' after
  let (head, _) ← cut ((findBy isQueryMark url).getD (byteLen url)) url
  return (findBy isUrlHeadTerminator head).getD end'

def splitUrl (piece : List Char) : Scrub (Option UrlCut) :=
  match findText schemeMark piece with
  | none => return none
  | some separator => do
    let (before, marked) ← cut separator piece
    if (schemeRun before).isEmpty then return none
    else
      let (lead, scheme) ← cut (byteLen before - byteLen (schemeRun before)) before
      let (_, after) ← cut (byteLen schemeMark) marked
      let (url, rest) ← cut (← urlEnd after) after
      return some ⟨lead, scheme, url, rest⟩

def afterLast (separator : Char) (text : List Char) : Option (List Char) :=
  if text.contains separator then some (text.rtakeWhile (· != separator)) else none

/-- The host of an authority; that there was userinfo is still said. -/
def shownHost (authority : List Char) : List Char :=
  match afterLast '@' authority with
  | some host => redaction ++ '@' :: host
  | none => authority

/-- A segment of a path, judged by its shape. -/
def redactSegment (segment : List Char) : Scrub (List Char) :=
  if segment.isEmpty then return [] else redactValue segment

/-- The segments of a path, one after the other. -/
def redactSegments : List (List Char) → Scrub (List (List Char))
  | [] => return []
  | segment :: segments => do
    let rendered ← redactSegment segment
    return rendered :: (← redactSegments segments)

def redactPath (path : List Char) : Scrub (List Char) := do
  return ['/'].intercalate (← redactSegments (path.splitOn '/'))

def redactUrl (scheme rest : List Char) : Scrub (List Char) := do
  let (authority, tail) ← cut
    ((findBy (fun c ↦ c == '/' || isQueryMark c) rest).getD (byteLen rest)) rest
  let host := shownHost authority
  match findBy isQueryMark tail with
  | some mark => do
    let (path, query) ← cut mark tail
    let (separator, _) ← cut 1 query
    return scheme ++ schemeMark ++ host ++ (← redactPath path) ++ separator ++ redaction
  | none => return scheme ++ schemeMark ++ host ++ (← redactPath tail)

/-! ## Pairs -/

inductive Carry where
  | none
  | expecting
  | unclosed
deriving DecidableEq

def closesAValue (punctuation : List Char) : Bool :=
  punctuation.any ['"', '\'', '`', ',', ';', ']', '}', ')'].contains

def opensAnUnclosedQuote (lead trail : List Char) : Bool :=
  lead.any ['"', '\'', '`'].contains && !trail.any ['"', '\'', '`'].contains

def isTagName (preceding following : Option Char) : Bool :=
  preceding == some '<' && following == some '>'

/-- What a separator tells of a credential. -/
inductive Named where
  | absent
  | empty
  | redacted (text : List Char) (carry : Carry)
deriving DecidableEq

def passOne (core : List Char) (separator : Char) : Scrub Named :=
  match splitOnce separator core with
  | none => return .absent
  | some (key, raw) =>
    if isCredentialKey key then do
      let value ← splitWrappers raw
      if value.core.isEmpty then return .empty
      else
        let carry := if opensAnUnclosedQuote value.lead value.trail then .unclosed else .none
        return .redacted (key ++ separator :: (value.lead ++ redaction ++ value.trail)) carry
    else return .absent

/-- A digest is not labelled twice. -/
def unlabelled (key redacted : List Char) : List Char :=
  if foldAscii (trimKey key) = "sha256".toList then
    (redacted.dropPrefix? "sha256:".toList).getD redacted
  else redacted

def passTwo (core : List Char) (separator : Char) : Scrub (Option (List Char)) :=
  match splitOnce separator core with
  | none => return none
  | some (key, raw) => do
    let value ← splitWrappers raw
    if value.core.isEmpty then return none
    else
      let redacted ← redactValue value.core
      return some (key ++ separator :: (value.lead ++ unlabelled key redacted ++ value.trail))

/-- A core that passes neither separator is judged by its shape. -/
def redactBare (core : List Char) (named : Bool) : Scrub (List Char × Carry) := do
  return (← redactValue core, if named || isCredentialKey core then .expecting else .none)

/-- Pass two of both separators. -/
def redactShapes (core : List Char) (named : Bool) : Scrub (List Char × Carry) := do
  match ← passTwo core '=' with
  | some text => return (text, .none)
  | none =>
    match ← passTwo core ':' with
    | some text => return (text, .none)
    | none => redactBare core named

/-- The two passes over a core with neither URLs nor structure: the first runs to its end before
the second begins. -/
def redactPair (core : List Char) : Scrub (List Char × Carry) := do
  match ← passOne core '=' with
  | .redacted text carry => return (text, carry)
  | first =>
    match ← passOne core ':' with
    | .redacted text carry => return (text, carry)
    | second => redactShapes core (first == .empty || second == .empty)

/-! ## Cores -/

/-- How a core is redacted, given the punctuation that was stripped off its end. -/
abbrev Redactor := List Char → List Char → Scrub (List Char × Carry)

/-- The claim of a key is spent on the piece. -/
def Carry.claims (carry : Carry) (tagName : Bool) : Bool :=
  match carry with
  | .none => false
  | .expecting => !tagName
  | .unclosed => true

def redactFragment (inner : Redactor) (piece : List Char) (carry : Carry)
    (tagName trailing : Bool) : Scrub (List Char × Carry) := do
  let wrapped ← splitWrappers piece
  if wrapped.core.isEmpty then return (piece, carry)
  else if carry.claims tagName then
    return (wrapped.lead ++ redaction ++ wrapped.trail,
      if !closesAValue wrapped.trail && (carry == .unclosed || trailing) then .unclosed else .none)
  else
    let (rendered, next) ← inner wrapped.core wrapped.trail
    return (wrapped.lead ++ rendered ++ wrapped.trail,
      if closesAValue wrapped.trail then .none else if next = .none then carry else next)

/-- The text before a URL or after the last one, where there is any. -/
def redactAround (inner : Redactor) (text : List Char) : Scrub (List Char) :=
  if text.isEmpty then return []
  else do return (← inner text []).1

def redactCut (inner : Redactor) (found : UrlCut) : Scrub (List Char) := do
  return (← redactAround inner found.lead) ++ (← redactUrl found.scheme found.url)

/-- The loop over the URLs after the first one. -/
def redactRest (inner : Redactor) : Nat → List Char → List Char → Scrub (List Char)
  | 0, _, _ => .error .endless
  | turns + 1, out, rest => do
    match ← splitUrl rest with
    | some found => redactRest inner turns (out ++ (← redactCut inner found)) found.rest
    | none => return out ++ (← redactAround inner rest)

/-- A piece that is not empty is redacted in its place. -/
def redactPiece (inner : Redactor) (piece : List Char) (carry : Carry) (tagName trailing : Bool) :
    Scrub (List Char × Carry) :=
  if piece.isEmpty then return ([], carry) else redactFragment inner piece carry tagName trailing

/-- The loop over the structural characters. -/
def redactPieces (inner : Redactor) (closing : List Char) :
    Nat → List Char → Carry → Option Char → List Char → Scrub (List Char × Carry)
  | 0, _, _, _, _ => .error .endless
  | turns + 1, out, carry, preceding, rest =>
    match findBy isStructural rest with
    | some index => do
      let (piece, tail) ← cut index rest
      let separator ← firstByte tail
      let (rendered, next) ←
        redactPiece inner piece carry (isTagName preceding (some separator)) false
      let (one, rest) ← cut 1 tail
      redactPieces inner closing turns (out ++ rendered ++ one) next (some separator) rest
    | none => do
      let (rendered, next) ←
        redactPiece inner rest carry (isTagName preceding closing.head?) true
      return (out ++ rendered, next)

/-- `redact_core`, in at most so many nested activations. -/
def redactCore : Nat → Redactor
  | 0, _, _ => .error .depth
  | levels + 1, core, closing => do
    match ← splitUrl core with
    | some found =>
      let out ← redactCut (redactCore levels) found
      return (← redactRest (redactCore levels) (found.rest.length + 1) out found.rest, .none)
    | none =>
      if looksLikePath core then return (pathRedaction, .none)
      else if core.any isStructural then
        redactPieces (redactCore levels) closing (core.length + 1) [] .none none core
      else redactPair core

/-! ## Words -/

/-- How many of the following words a word implicates. -/
def followOn (trail : List Char) (carry : Carry) : Nat :=
  if closesAValue trail then 0
  else
    match carry with
    | .none => 0
    | .unclosed => 1
    | .expecting => 2

def redactWord (levels : Nat) (word : List Char) : Scrub (List Char × Nat) := do
  let wrapped ← splitWrappers word
  if wrapped.core.isEmpty then return (word, 0)
  else
    let stem := wrapped.core.rdropWhile fun c ↦ c == ':' || c == '='
    if decide (byteLen stem < byteLen wrapped.core) && isCredentialKey stem then return (word, 2)
    else if isSchemeWord wrapped.core then return (word, 1)
    else
      let (rendered, carry) ← redactCore levels wrapped.core wrapped.trail
      return (wrapped.lead ++ rendered ++ wrapped.trail, followOn wrapped.trail carry)

/-- A header value ends at a comma or a semicolon. -/
def endsAValue (word : List Char) : Bool :=
  word.getLast?.any fun c ↦ c == ',' || c == ';'

/-- One chunk, after what was put out and with so many words pending. -/
def redactChunk (levels : Nat) (state : List Char × Nat) (chunk : List Char) :
    Scrub (List Char × Nat) := do
  let (out, pending) := state
  let (word, blank) ← splitTrailingWhitespace chunk
  if word.isEmpty then return (out ++ blank, pending)
  else if 0 < pending then
    return (out ++ redaction ++ blank, if endsAValue word then 0 else pending - 1)
  else
    let (rendered, pending) ← redactWord levels word
    return (out ++ rendered ++ blank, pending)

/-- `redact`, where at most so many activations of `redact_core` are nested. -/
def redactWithin (levels : Nat) (text : List Char) : Scrub (List Char) := do
  return (← (splitInclusiveBy isWhitespace text).foldlM (redactChunk levels) ([], 0)).1

def redact (text : List Char) : Scrub (List Char) :=
  redactWithin 4 text

end RunnerManager.Platform.Redaction
