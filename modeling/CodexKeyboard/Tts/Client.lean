import CodexKeyboard.Tts.Session

/-! `DashScopeTtsClient::synthesize`: the attempts of one call and what each of them submitted.

    What the network, the clock, the proxy lookup and the TLS setup do in an attempt is the argument
    `AttemptAnswers`, free to be anything; each field is read where the code asks for it. -/

namespace CodexKeyboard.Tts

open Schemes.Transact Summary Store Audio

/-- What one attempt meets. -/
structure AttemptAnswers where
  /-- The target `prepare_tts_platform` prepares; `HandshakeTarget.tts` outside the tests. -/
  platform : Except VerificationError HandshakeTarget := .ok .tts
  connect : Except VerificationError TransportRoute := .ok .direct
  tls : Except VerificationError Connection := .ok {}
  audio : AudioAnswers := {}
  websocketKey : String := ""
  eventId : Nat → String := fun _ => ""

/-- An attempt that is over; `submitted` once a write of the billable submission was begun. -/
structure Attempt where
  submitted : Bool
  outcome : Except AttemptFailure TtsAudio

/-- What `synthesize_once` has before it asks for anything billable. -/
structure Connected where
  target : HandshakeTarget
  transport : TransportRoute
  stream : Connection

def platformFailure (e : VerificationError) : AttemptFailure :=
  if mapVerificationError e = .unavailable ∨ mapVerificationError e = .rateLimited then
    .again (mapVerificationError e)
  else .terminal (mapVerificationError e)

def connect (answers : AttemptAnswers) : Except AttemptFailure Connected := do
  let target ← answers.platform.mapError platformFailure
  let transport ← answers.connect.mapError AttemptFailure.transport
  let stream ← answers.tls.mapError AttemptFailure.transport
  .ok ⟨target, transport, stream⟩

/-- The way over the WebSocket. -/
def synthesizeWebsocketOnce (libs : Libs) (request : TtsRequest) (answers : AttemptAnswers)
    (connected : Connected) : Attempt :=
  let opened := do
    let ws ← authorizeTtsWebsocket libs answers.websocketKey connected.stream
    openTtsSession libs request answers.eventId ws
  match opened with
  | .error failure => ⟨false, .error failure⟩
  | .ok (state, ws) =>
    ⟨true, commitTtsSession libs request connected.transport answers.eventId state ws⟩

/-- `synthesize_once`. -/
def synthesizeOnce (libs : Libs) (request : TtsRequest) (answers : AttemptAnswers) : Attempt :=
  match connect answers with
  | .error failure => ⟨false, .error failure⟩
  | .ok connected =>
    if connected.target.requestTarget = ttsRequestTarget then
      ⟨true, synthesizeHttpOnce libs request connected.transport connected.stream answers.audio⟩
    else synthesizeWebsocketOnce libs request answers connected

def maxTtsTextBytes : Nat := 64 * 1024
def maxTtsInstructionsBytes : Nat := 16 * 1024
def maxTtsAttempts : Nat := 3

def validateTtsRequest (request : TtsRequest) : Except TtsError Unit :=
  ensure (request.text ≠ "" ∧ request.text.utf8ByteSize ≤ maxTtsTextBytes ∧
    ¬ request.text.toList.any isControl = true ∧ request.voice ≠ "" ∧ request.voice.utf8ByteSize ≤ 64 ∧
    request.voice.toList.all (fun c => decide (c.val < 0x80) &&
      (c.isAlphanum || c == ' ' || c == '-' || c == '_')) = true ∧
    request.instructions.utf8ByteSize ≤ maxTtsInstructionsBytes ∧
    ¬ request.instructions.toList.any isControl = true) .invalidRequest

/-- What the secret store answers: whether the key is installed, and the key. -/
structure SecretAnswers where
  installed : Except Unit Bool := .ok true
  secret : Except Unit (Option Unit) := .ok (some ())

def readSecret (answers : SecretAnswers) : Except TtsError Unit := do
  let installed ← answers.installed.mapError fun _ => TtsError.credential
  ensure (installed = true) .credential
  let secret ← answers.secret.mapError fun _ => TtsError.credential
  orThrow .credential secret

/-- A call: the attempts it made, each with what it met, and its result. -/
structure Call where
  made : List (AttemptAnswers × Attempt)
  result : Except TtsError TtsAudio

def Call.after (step : AttemptAnswers × Attempt) (call : Call) : Call :=
  { call with made := step :: call.made }

/-- The loop of `synthesize` from `attempt` on, of which `remaining` attempts are left. -/
def attemptsFrom (libs : Libs) (request : TtsRequest) (answers : Nat → AttemptAnswers) (attempt : Nat) :
    (remaining : Nat) → Call
  | 0 => ⟨[], .error .unavailable⟩
  | remaining + 1 =>
    let once := synthesizeOnce libs request (answers attempt)
    match once.outcome with
    | .ok audio =>
      ⟨[(answers attempt, once)], .ok { audio with receipt := { audio.receipt with attempts := attempt } }⟩
    | .error failure =>
      if failure.retryable = true ∧ 0 < remaining then
        (attemptsFrom libs request answers (attempt + 1) remaining).after (answers attempt, once)
      else ⟨[(answers attempt, once)], .error failure.error⟩

/-- `DashScopeTtsClient::synthesize`. -/
def synthesize (libs : Libs) (maxAttempts : Nat) (secrets : SecretAnswers) (request : TtsRequest)
    (answers : Nat → AttemptAnswers) : Call :=
  match validateTtsRequest request >>= fun _ => readSecret secrets with
  | .error e => ⟨[], .error e⟩
  | .ok _ => attemptsFrom libs request answers 1 (min (max maxAttempts 1) maxTtsAttempts)

end CodexKeyboard.Tts
