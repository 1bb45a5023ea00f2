import CodexKeyboard.Schemes.Text
import CodexKeyboard.Store.Jobs
import Mathlib.Data.List.DropRight

/-! `redact_sensitive_text`: credentials, local paths and secret-looking tokens are taken out of a
    text before it is stored, prompted with or spoken.

    Indices are bytes, as in the source. A slice off a character boundary, out of range or out of
    order panics; a loop is given fuel, so that one that does not come to its end would show. -/

namespace CodexKeyboard.Redaction

open Schemes Text Transact Store

/-- How a call does not return. -/
inductive Halt where
  | panic | unfinished
  deriving DecidableEq, Repr

/-- The slice an expression of the source takes. -/
def sliced {α : Type} (o : Option α) : Except Halt α := orThrow .panic o

/-- `to_ascii_lowercase`. -/
def lowercase (s : Text) : Text := s.map Char.toLower

def contains (pattern : String) (s : Text) : Bool := (findText pattern.toList s).isSome

def redactedLine : Text := "[redacted-sensitive-line]".toList
def redactedCredential : Text := "[redacted-credential]@".toList
def redactedPath : Text := "[redacted-path]".toList
def redactedToken : Text := "[redacted-token]".toList

/-! ### Assignments -/

def sensitiveKeys : List String :=
  ["api_key", "api-key", "apikey", "authorization", "access_token", "access-token", "refresh_token",
    "refresh-token", "token", "secret", "password", "cookie", "set-cookie", "client_secret",
    "client-secret", "aws_secret_access_key", "aws-secret-access-key", "credential", "credentials",
    "private_key"]

/-- `match_indices`, from byte `offset` on; the next `skip` characters belong to the last match. -/
def matchIndices (key : Text) : Text → (skip offset : Nat) → List Nat
  | [], _, _ => []
  | c :: s, skip + 1, offset => matchIndices key s skip (offset + c.utf8Size)
  | c :: s, 0, offset =>
    if key <+: c :: s then offset :: matchIndices key s (key.length - 1) (offset + c.utf8Size)
    else matchIndices key s 0 (offset + c.utf8Size)

def isAsciiWhitespace (c : Char) : Bool :=
  c == ' ' || c == '\t' || c == '\n' || c == '\x0c' || c == '\r'

/-- The key at `start` is followed by what assigns to it. -/
def assignedAt (line : Text) (key : Text) (start : Nat) : Except Halt Bool := do
  let before ← sliced (sliceTo line start)
  if before.getLast?.any Char.isAlphanum then .ok false
  else
    let suffix ← sliced (sliceFrom line (start + size key))
    let suffix ← if suffix.head?.any (fun c => c == '"' || c == '\'') then sliced (sliceFrom suffix 1)
      else .ok suffix
    .ok ((suffix.dropWhile isAsciiWhitespace).head?.any fun c => c == ':' || c == '=')

def containsSensitiveAssignment (line : Text) : Except Halt Bool :=
  sensitiveKeys.anyM fun key =>
    (matchIndices key.toList line 0 0).anyM (assignedAt line key.toList)

/-! ### Credentials of a URL -/

def urlSchemes : List Text := ["https://".toList, "http://".toList, "wss://".toList, "ws://".toList]

/-- The first scheme in `rest`: where it starts, and which it is. -/
def nextScheme (rest : Text) : Option (Nat × Text) :=
  (urlSchemes.filterMap fun scheme => (findText scheme rest).map (·, scheme)).foldl
    (fun best next => match best with
      | none => some next
      | some best => if next.1 < best.1 then some next else some best) none

def endsAuthority (c : Char) : Bool :=
  isWhitespace c || c == '/' || c == '?' || c == '#' || c == '"' || c == '`' || c == '<' || c == '>'

/-- Where the run from `start` on ends: at the first character that ends it, or with the line. -/
def runEnd (ends : Char → Bool) (line rest : Text) (start : Nat) : Nat :=
  match find ends rest with
  | some relative => start + relative
  | none => size line

def redactAuthority (authority : Text) : Except Halt Text :=
  match rfind (· == '@') authority with
  | some at' => do
    let host ← sliced (sliceFrom authority (at' + 1))
    .ok (redactedCredential ++ host)
  | none => .ok authority

def redactUrlUserinfoLoop (line : Text) : (fuel cursor : Nat) → (output : Text) → Except Halt Text
  | 0, _, _ => .error .unfinished
  | fuel + 1, cursor, output =>
    if cursor < size line then do
      let rest ← sliced (sliceFrom (lowercase line) cursor)
      match nextScheme rest with
      | none => do
        let tail ← sliced (sliceFrom line cursor)
        .ok (output ++ tail)
      | some (relative, scheme) => do
        let authorityStart := cursor + relative + size scheme
        let head ← sliced (slice line cursor authorityStart)
        let rest ← sliced (sliceFrom line authorityStart)
        let authorityEnd := runEnd endsAuthority line rest authorityStart
        let authority ← sliced (slice line authorityStart authorityEnd)
        let redacted ← redactAuthority authority
        redactUrlUserinfoLoop line fuel authorityEnd (output ++ head ++ redacted)
    else .ok output

def redactUrlUserinfo (line : Text) : Except Halt Text :=
  redactUrlUserinfoLoop line (size line + 1) 0 []

/-! ### Local paths -/

/-- The characters a path may follow. -/
def opensPath (c : Char) : Bool :=
  isWhitespace c || c == '(' || c == '[' || c == '\x7b' || c == '<' || c == '=' || c == ':' ||
  c == '"' || c == '\'' || c == '`'

def endsPath (c : Char) : Bool :=
  isWhitespace c || c == '"' || c == '\'' || c == '`' || c == ')' || c == ']' || c == '\x7d' ||
  c == '>' || c == ',' || c == ';'

/-- The scheme before byte `stop`, with the index it is taken to start at. -/
def schemeBefore (line : Text) (stop : Nat) : Except Halt (Nat × Text) := do
  let before ← sliced (sliceTo line stop)
  let schemeStart := match rfind (fun c => !c.isAlphanum) before with
    | some position => position + 1
    | none => 0
  let scheme ← sliced (slice line schemeStart stop)
  .ok (schemeStart, scheme)

def isSlash (byte : UInt8) : Bool := byte == 0x2f || byte == 0x5c

/-- `u8::is_ascii_alphabetic`. -/
def isAlphabetic (byte : UInt8) : Bool :=
  (0x41 ≤ byte && byte ≤ 0x5a) || (0x61 ≤ byte && byte ≤ 0x7a)

/-- A drive letter stands before the colon at `index`, and may open a path. -/
def driveBefore (line suffix : Text) (index : Nat) : Except Halt Bool :=
  if suffix.head? = some ':' ∧ (asBytes suffix)[1]?.any isSlash = true ∧ 0 < index ∧
      (asBytes line)[index - 1]?.any isAlphabetic = true then
    if index = 1 then .ok true
    else do
      let before ← sliced (sliceTo line (index - 1))
      .ok (before.getLast?.any opensPath)
  else .ok false

/-- A path that starts at `index` itself. -/
def opensHere (before suffix : Text) (index : Nat) : Bool :=
  (index == 0 || before.getLast?.any opensPath) &&
  ("file://".toList.isPrefixOf suffix || "~/".toList.isPrefixOf suffix ||
    "/".toList.isPrefixOf suffix ||
    (decide (3 ≤ size suffix) && (asBytes suffix)[0]?.any isAlphabetic &&
      (asBytes suffix)[1]?.any (· == 0x3a) && (asBytes suffix)[2]?.any isSlash))

/-- The end of `local_path_start`, for an index that no scheme decides. -/
def plainPathStart (line before suffix : Text) (index : Nat) : Except Halt (Option Nat) := do
  let drive ← driveBefore line suffix index
  .ok (if drive then some (index - 1) else if opensHere before suffix index then some index else none)

def webSchemes : List Text := ["http".toList, "https".toList, "ws".toList, "wss".toList]

def localPathStart (line : Text) (index : Nat) : Except Halt (Option Nat) := do
  let suffix ← sliced (sliceFrom line index)
  let before ← sliced (sliceTo line index)
  if "://".toList.isPrefixOf suffix then do
    let (start, scheme) ← schemeBefore line index
    .ok (if lowercase scheme = "file".toList then some start else none)
  else if suffix.head? = some '/' ∧ before.getLast? = some ':' then do
    let (start, scheme) ← schemeBefore line (index - 1)
    if lowercase scheme = "file".toList then .ok (some start)
    else if lowercase scheme ∈ webSchemes then .ok none
    else plainPathStart line before suffix index
  else plainPathStart line before suffix index

def isPathMark (c : Char) : Bool := c == '/' || c == '~' || c == ':'

def redactEmbeddedPathsLoop (line : Text) : (fuel cursor : Nat) → (output : Text) → Except Halt Text
  | 0, _, _ => .error .unfinished
  | fuel + 1, cursor, output =>
    if cursor < size line then do
      let rest ← sliced (sliceFrom line cursor)
      match find isPathMark rest with
      | none => .ok (output ++ rest)
      | some relative => do
        let candidate := cursor + relative
        let start ← localPathStart line candidate
        match start with
        | none => do
          let mark ← sliced ((sliceFrom line candidate).bind List.head?)
          let next := candidate + mark.utf8Size
          let passed ← sliced (slice line cursor next)
          redactEmbeddedPathsLoop line fuel next (output ++ passed)
        | some start => do
          let passed ← sliced (slice line cursor start)
          let path ← sliced (sliceFrom line start)
          let stop := runEnd endsPath line path start
          redactEmbeddedPathsLoop line fuel (max stop (start + 1)) (output ++ passed ++ redactedPath)
    else .ok output

def redactEmbeddedPaths (line : Text) : Except Halt Text :=
  redactEmbeddedPathsLoop line (size line + 1) 0 []

/-! ### Tokens -/

def isTokenCharacter (c : Char) : Bool :=
  c.isAlphanum || c == '-' || c == '_' || c == '.' || c == '/' || c == '+' || c == '='

def trimsToken (c : Char) : Bool :=
  c == '`' || c == '"' || c == '\'' || c == ',' || c == ';' || c == ')' || c == ']' || c == '\x7d'

/-- `trim_matches`. -/
def trimMatches (p : Char → Bool) (s : Text) : Text := (s.dropWhile p).rdropWhile p

def knownPrefixes : List Text :=
  ["sk-".toList, "ghp_".toList, "github_pat_".toList, "xoxb-".toList, "xoxp-".toList, "AKIA".toList,
    "ASIA".toList, "AIza".toList]

def isHexDigit (c : Char) : Bool :=
  c.isDigit || ('a' ≤ c && c ≤ 'f') || ('A' ≤ c && c ≤ 'F')

def looksLikeSecretToken (token : Text) : Bool :=
  let token := trimMatches trimsToken token
  -- `rsplit_once('=')`: what is behind the last one
  let token := token.rtakeWhile (· != '=')
  let knownPrefix := knownPrefixes.any fun pre => pre.isPrefixOf token && decide (size pre + 8 ≤ size token)
  let segments := token.splitOn '.'
  let jwt := "eyJ".toList.isPrefixOf token && segments.length == 3 &&
    segments.all fun segment => decide (8 ≤ size segment)
  let gitSha := size token == 40 && token.all isHexDigit
  let highEntropy := !gitSha && decide (32 ≤ size token) && token.any Char.isAlpha &&
    token.any Char.isDigit &&
    token.all fun c => c.isAlphanum || c == '-' || c == '_' || c == '+' || c == '='
  knownPrefix || jwt || highEntropy

def redactEmbeddedTokensLoop (line : Text) : (fuel cursor : Nat) → (output : Text) → Except Halt Text
  | 0, _, _ => .error .unfinished
  | fuel + 1, cursor, output =>
    if cursor < size line then do
      let rest ← sliced (sliceFrom line cursor)
      match find isTokenCharacter rest with
      | none => .ok (output ++ rest)
      | some relative => do
        let start := cursor + relative
        let passed ← sliced (slice line cursor start)
        let run ← sliced (sliceFrom line start)
        let stop := runEnd (fun c => !isTokenCharacter c) line run start
        let token ← sliced (slice line start stop)
        redactEmbeddedTokensLoop line fuel stop
          (output ++ passed ++ if looksLikeSecretToken token then redactedToken else token)
    else .ok output

def redactEmbeddedTokens (line : Text) : Except Halt Text :=
  redactEmbeddedTokensLoop line (size line + 1) 0 []

/-! ### Lines -/

/-- `str::lines`: a line ends with its newline, and a carriage return before that goes too. -/
def lines (s : Text) : List Text :=
  let parts := s.splitOn '\n'
  let ended := parts.dropLast.map fun line => if line.getLast? = some '\r' then line.dropLast else line
  match parts.getLast? with
  | none | some [] => ended
  | some last => ended ++ [last]

def startsPrivateKey (line : Text) : Bool :=
  contains "-----begin " (lowercase line) && contains "private key" (lowercase line)

def endsPrivateKey (line : Text) : Bool :=
  contains "-----end " (lowercase line) && contains "private key" (lowercase line)

/-- A line that is replaced as a whole. -/
def isSensitiveLine (lower : Text) : Except Halt Bool :=
  if contains "bearer " lower then .ok true else containsSensitiveAssignment lower

/-- One line, and whether a private key goes on after it. -/
def redactLine (privateKey : Bool) (line : Text) : Except Halt (Text × Bool) :=
  if privateKey || startsPrivateKey line then .ok (redactedLine, !endsPrivateKey line)
  else do
    let sensitive ← isSensitiveLine (lowercase line)
    if sensitive then .ok (redactedLine, false)
    else do
      let userinfo ← redactUrlUserinfo line
      let paths ← redactEmbeddedPaths userinfo
      let tokens ← redactEmbeddedTokens paths
      .ok (tokens, false)

def redactLines : Bool → List Text → Except Halt (List Text)
  | _, [] => .ok []
  | privateKey, line :: rest => do
    let (redacted, privateKey) ← redactLine privateKey line
    let rest ← redactLines privateKey rest
    .ok (redacted :: rest)

/-- `trim`. -/
def trim (s : Text) : Text := trimMatches isWhitespace s

def redactSensitiveText (text : Text) : Except Halt Text := do
  let redacted ← redactLines false (lines (text.filter (· != '\x00')))
  .ok (trim (List.intercalate ['\n'] redacted))

end CodexKeyboard.Redaction
