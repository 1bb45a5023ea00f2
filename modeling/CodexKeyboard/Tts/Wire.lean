import CodexKeyboard.Schemes.Transact
import CodexKeyboard.Store.Jobs
import CodexKeyboard.Summary.Orchestrator

/-! What the speech client reads off a connection: HTTP headers and bodies, WebSocket frames, JSON.

    A connection is a script: the bytes that arrive on it, how many of them each read may give, and
    whether each write goes through. A read that finds the script at its end fails, as every read does
    after the deadline. -/

namespace CodexKeyboard.Tts

open Schemes.Transact Summary Store

/-! ### Failures -/

inductive VerificationError where
  | rejected | unavailable | protocol
  deriving DecidableEq, Repr

structure AttemptFailure where
  error : TtsError
  retryable : Bool
  deriving DecidableEq, Repr

namespace AttemptFailure

def terminal (error : TtsError) : AttemptFailure := ⟨error, false⟩

/-- `AttemptFailure::retryable`. -/
def again (error : TtsError) : AttemptFailure := ⟨error, true⟩

def transport : VerificationError → AttemptFailure
  | .rejected => terminal .rejected
  | .unavailable => again .unavailable
  | .protocol => terminal .protocol

end AttemptFailure

def mapVerificationError : VerificationError → TtsError
  | .rejected => .rejected
  | .unavailable => .unavailable
  | .protocol => .protocol

def ambiguousAfterCommit : AttemptFailure := .terminal .ambiguousAfterCommit

def retryBeforeCommit (failure : AttemptFailure) : AttemptFailure :=
  if failure.error = .unavailable then .again .unavailable else failure

def protocolFailure (requestSubmitted : Bool) : AttemptFailure :=
  if requestSubmitted then ambiguousAfterCommit else .terminal .protocol

/-! ### Connections -/

structure Connection where
  arriving : List UInt8 := []
  reads : List Nat := []
  writes : List Bool := []
  deriving DecidableEq, Repr

/-- `write_all` and `flush`: none when either fails. -/
def Connection.write (connection : Connection) : Option Connection :=
  match connection.writes with
  | true :: rest => some { connection with writes := rest }
  | _ => none

inductive HeaderScan where
  | needMore
  | complete (headerEnd : Nat)
  | tooLarge
  deriving DecidableEq, Repr

/-- `windows(4).position(|window| window == b"\r\n\r\n")`. -/
def blankLine : List UInt8 → Option Nat
  | [] => none
  | b :: bs => if (b :: bs).take 4 = [13, 10, 13, 10] then some 0 else (blankLine bs).map (· + 1)

def maxHttpHeaderBytes : Nat := 16 * 1024

def scanHttpHeader (response : List UInt8) (maximum : Nat) : HeaderScan :=
  match blankLine response with
  | some index => if index + 4 ≤ maximum then .complete (index + 4) else .tooLarge
  | none => if maximum ≤ response.length then .tooLarge else .needMore

/-- What a loop over reads has left: the response so far and the rest of the script. -/
structure Received where
  response : List UInt8
  arriving : List UInt8
  reads : List Nat
  deriving DecidableEq, Repr

/-- How the loop over the header's reads may fail. -/
structure HeaderFailures where
  read : AttemptFailure
  ended : AttemptFailure
  tooLarge : AttemptFailure

/-- The loop that reads a header: where it ends, in all that has been read by then. -/
def readHeader (failures : HeaderFailures) (buffer : Nat) (response arriving : List UInt8) (reads : List Nat) :
    Except AttemptFailure (Nat × Received) :=
  match scanHttpHeader response maxHttpHeaderBytes with
  | .complete headerEnd => .ok (headerEnd, ⟨response, arriving, reads⟩)
  | .tooLarge => .error failures.tooLarge
  | .needMore =>
    match reads with
    | [] => .error failures.read
    | size :: reads =>
      let chunk := arriving.take (min size buffer)
      if chunk = [] then .error failures.ended
      else readHeader failures buffer (response ++ chunk) (arriving.drop (min size buffer)) reads

/-- The loop that reads on until the response has its length. -/
def readBody (buffer total : Nat) (response arriving : List UInt8) (reads : List Nat) :
    Except AttemptFailure (List UInt8) :=
  if total ≤ response.length then .ok response
  else
    match reads with
    | [] => .error ambiguousAfterCommit
    | size :: reads =>
      let readLimit := min (total - response.length) buffer
      let chunk := arriving.take (min size readLimit)
      if chunk = [] then .error ambiguousAfterCommit
      else readBody buffer total (response ++ chunk) (arriving.drop (min size readLimit)) reads

def afterSubmission : HeaderFailures := ⟨ambiguousAfterCommit, ambiguousAfterCommit, ambiguousAfterCommit⟩

/-- The header of the answer to a request that was submitted, and what was read with it. -/
def answerHeader (connection : Connection) : Except AttemptFailure (List UInt8 × Received) := do
  let (headerEnd, received) ← readHeader afterSubmission 4096 [] connection.arriving connection.reads
  .ok (received.response.take headerEnd, received)

/-- An answer of the length its header announces: `read_batch_tts_response` and the end of
    `get_batch_tts_audio`, which differ in the check of the header, the limit and the buffer. -/
def readAnswer (validate : List UInt8 → Except AttemptFailure Nat) (maximum : Nat)
    (overLimit : AttemptFailure) (buffer : Nat) (connection : Connection) :
    Except AttemptFailure (List UInt8) := do
  let (header, received) ← answerHeader connection
  let bodyLength ← validate header
  ensure (bodyLength ≤ maximum) overLimit
  let response ←
    readBody buffer (header.length + bodyLength) received.response received.arriving received.reads
  ensure (response.length = header.length + bodyLength) ambiguousAfterCommit
  .ok (response.drop header.length)

/-! ### Headers -/

/-- A response as `httparse` gives it, complete. -/
structure ParsedResponse where
  version : Nat
  code : Nat
  headers : List (String × List UInt8)

/-- `unique_header_value`: none for a header that stands twice. -/
def uniqueHeaderValue (parsed : ParsedResponse) (name : String) : Option (Option (List UInt8)) :=
  match parsed.headers.filter fun header => header.1.toLower == name with
  | [] => some none
  | [header] => some (some header.2)
  | _ => none

def isDigit (b : UInt8) : Bool := 0x30 ≤ b && b ≤ 0x39

/-- `str::from_utf8` and `parse::<usize>`. -/
def parseUsize (value : List UInt8) : Option Nat :=
  let digits := match value with
    | 0x2b :: rest => rest
    | _ => value
  if digits = [] || !digits.all isDigit then none
  else
    let number := digits.foldl (fun n b => n * 10 + (b.toNat - 0x30)) 0
    if number < 2 ^ 64 then some number else none

/-- The length a body is to have: a content length and no transfer encoding. -/
def contentLength (parsed : ParsedResponse) : Except AttemptFailure Nat := do
  let encoding ← orThrow ambiguousAfterCommit (uniqueHeaderValue parsed "transfer-encoding")
  ensure (encoding = none) ambiguousAfterCommit
  let length ← orThrow ambiguousAfterCommit (uniqueHeaderValue parsed "content-length")
  let length ← orThrow ambiguousAfterCommit length
  orThrow ambiguousAfterCommit (parseUsize length)

/-! ### JSON -/

/-- `serde_json::Value`; of a number only what `as_u64` gives. -/
inductive Json where
  | null
  | bool (b : Bool)
  | num (asU64 : Option Nat)
  | str (s : String)
  | arr (values : List Json)
  | obj (fields : List (String × Json))

namespace Json

def get (key : String) : Json → Option Json
  | .obj fields => (fields.find? fun field => field.1 == key).map (·.2)
  | _ => none

/-- `Value::pointer`, for tokens that are no numbers. -/
def pointer : List String → Json → Option Json
  | [], value => some value
  | key :: keys, value => (value.get key).bind (pointer keys)

def asStr : Json → Option String
  | .str s => some s
  | _ => none

def asU64 : Json → Option Nat
  | .num n => n
  | _ => none

def asArray : Json → Option (List Json)
  | .arr values => some values
  | _ => none

end Json

/-- What the client uses of its libraries. -/
structure Libs where
  /-- `httparse::Response::parse` with 32 headers: none for an error and for an unfinished header. -/
  parseResponse : List UInt8 → Option ParsedResponse
  /-- `serde_json::from_slice`. -/
  parseJson : List UInt8 → Option Json
  /-- `BASE64.decode`. -/
  decodeBase64 : String → Option (List UInt8)
  /-- `websocket_accept`: SHA-1 and base64. -/
  websocketAccept : String → List UInt8

end CodexKeyboard.Tts
