import CodexKeyboard.Tts.Batch
import CodexKeyboard.Schemes.JsonWriter

/-! The speech session over a WebSocket: `authorize_tts_websocket` and `run_tts_session`.

    A session ends its loop over the server's events with `response.done`. What the code does after
    that (the finish event, the closing handshake) has its results discarded there and is left out. -/

namespace CodexKeyboard.Tts

open Schemes Text Transact Summary Store Audio

def legacyTtsModel : String := "qwen3-tts-instruct-flash-realtime"
def legacyTtsModelSnapshot : String := "qwen3-tts-instruct-flash-realtime-2026-01-22"
def maxServerEventBytes : Nat := 64 * 1024
def maxTtsServerEvents : Nat := 32768
def maxTtsAudioDeltas : Nat := 16384

/-! ### The handshake -/

def handshakeFailures : HeaderFailures := ⟨.again .unavailable, .again .unavailable, .terminal .protocol⟩

def lowerAscii (b : UInt8) : UInt8 := if 0x41 ≤ b && b ≤ 0x5a then b + 0x20 else b

def isAsciiSpace (b : UInt8) : Bool := b == 0x20 || b == 0x09 || b == 0x0a || b == 0x0c || b == 0x0d

/-- `trim_ascii` and `eq_ignore_ascii_case`. -/
def isToken (token : String) (bytes : List UInt8) : Bool :=
  (((bytes.dropWhile isAsciiSpace).reverse.dropWhile isAsciiSpace).reverse.map lowerAscii) ==
    token.toUTF8.data.toList

def validateTtsHandshakeResponse (libs : Libs) (websocketKey : String) (response : List UInt8) :
    Except AttemptFailure Unit := do
  let parsed ← orThrow (AttemptFailure.terminal .protocol) (libs.parseResponse response)
  ensure (parsed.version = 1) (AttemptFailure.terminal .protocol)
  if parsed.code = 101 then
    let upgrade ← orThrow (AttemptFailure.terminal .protocol) (uniqueHeaderValue parsed "upgrade")
    let connection ← orThrow (AttemptFailure.terminal .protocol) (uniqueHeaderValue parsed "connection")
    let accept ← orThrow (AttemptFailure.terminal .protocol)
      (uniqueHeaderValue parsed "sec-websocket-accept")
    let unsolicited := parsed.headers.any fun header =>
      header.1.toLower == "sec-websocket-extensions" || header.1.toLower == "sec-websocket-protocol"
    ensure (upgrade.any (fun value => value.map lowerAscii == "websocket".toUTF8.data.toList) = true ∧
      connection.any (fun value => (value.splitOn 0x2c).any (isToken "upgrade")) = true ∧
      accept = some (libs.websocketAccept websocketKey) ∧ unsolicited = false)
      (AttemptFailure.terminal .protocol)
  else if parsed.code = 401 ∨ parsed.code = 403 then .error (.terminal .rejected)
  else if parsed.code = 429 then .error (.again .rateLimited)
  else if 500 ≤ parsed.code ∧ parsed.code ≤ 599 then .error (.again .unavailable)
  else .error (.terminal .protocol)

/-- A WebSocket: what was read and not yet taken, and the connection it is read from. -/
structure WebSocket where
  pending : List UInt8
  connection : Connection
  fragmented : Option (List UInt8) := none
  deriving DecidableEq, Repr

def authorizeTtsWebsocket (libs : Libs) (websocketKey : String) (stream : Connection) :
    Except AttemptFailure WebSocket := do
  let stream ← orThrow (AttemptFailure.again .unavailable) stream.write
  let (headerEnd, received) ← readHeader handshakeFailures 1024 [] stream.arriving stream.reads
  validateTtsHandshakeResponse libs websocketKey (received.response.take headerEnd)
  .ok ⟨received.response.drop headerEnd,
    { stream with arriving := received.arriving, reads := received.reads }, none⟩

/-! ### Frames -/

structure ServerFrame where
  fin : Bool
  opcode : Nat
  payload : List UInt8
  deriving DecidableEq, Repr

/-- `read_exact` over the script: so many bytes and what is left of it. -/
def readExact : Nat → List UInt8 → List Nat → Option (List UInt8 × List UInt8 × List Nat)
  | 0, arriving, reads => some ([], arriving, reads)
  | _ + 1, _, [] => none
  | n + 1, arriving, size :: reads =>
    let chunk := arriving.take (min size (n + 1))
    if chunk = [] then none
    else
      (readExact (n + 1 - chunk.length) (arriving.drop (min size (n + 1))) reads).map fun rest =>
        (chunk ++ rest.1, rest.2)

def readExactPrefixed (n : Nat) (ws : WebSocket) : Except VerificationError (List UInt8 × WebSocket) := do
  let fromPending := ws.pending.take n
  let (rest, arriving, reads) ← orThrow .unavailable
    (readExact (n - fromPending.length) ws.connection.arriving ws.connection.reads)
  .ok (fromPending ++ rest, { ws with
    pending := ws.pending.drop n, connection := { ws.connection with arriving, reads } })

def natOfBe (bytes : List UInt8) : Nat := bytes.foldl (fun n b => n * 256 + b.toNat) 0

/-- The length of a frame's payload, with the bytes that extend its code. -/
def readFrameLength (lengthCode : Nat) (ws : WebSocket) : Except VerificationError (Nat × WebSocket) :=
  if lengthCode = 126 then do
    let (extended, ws) ← readExactPrefixed 2 ws
    ensure (126 ≤ natOfBe extended) .protocol
    .ok (natOfBe extended, ws)
  else if lengthCode = 127 then do
    let (extended, ws) ← readExactPrefixed 8 ws
    ensure (65536 ≤ natOfBe extended ∧ natOfBe extended < 2 ^ 63) .protocol
    .ok (natOfBe extended, ws)
  else .ok (lengthCode, ws)

def readServerFrame (ws : WebSocket) : Except VerificationError (ServerFrame × WebSocket) := do
  let (start, ws) ← readExactPrefixed 2 ws
  let first := (start.getD 0 0).toNat
  let second := (start.getD 1 0).toNat
  let fin := decide (128 ≤ first)
  let opcode := first % 16
  ensure (first / 16 % 8 = 0 ∧ second < 128 ∧ opcode ∈ [0x0, 0x1, 0x2, 0x8, 0x9, 0xA]) .protocol
  ensure (opcode < 0x8 ∨ (fin = true ∧ second < 126)) .protocol
  let (length, ws) ← readFrameLength second ws
  ensure (length ≤ maxServerEventBytes) .protocol
  let (payload, ws) ← readExactPrefixed length ws
  .ok (⟨fin, opcode, payload⟩, ws)

/-- `assemble_text_frame`: the payload of a whole message, when the frame ends one. -/
def assembleTextFrame (frame : ServerFrame) (ws : WebSocket) :
    Except VerificationError (Option (List UInt8) × WebSocket) :=
  if frame.opcode = 0x1 ∧ ws.fragmented = none then
    if frame.fin then .ok (some frame.payload, ws)
    else .ok (none, { ws with fragmented := some frame.payload })
  else if frame.opcode = 0x0 then do
    let payload ← orThrow .protocol ws.fragmented
    ensure (payload.length + frame.payload.length ≤ maxServerEventBytes) .protocol
    if frame.fin then .ok (some (payload ++ frame.payload), { ws with fragmented := none })
    else .ok (none, { ws with fragmented := some (payload ++ frame.payload) })
  else .error .protocol

/-- A write on the socket's connection. -/
def WebSocket.write (ws : WebSocket) : Option WebSocket :=
  ws.connection.write.map fun connection => { ws with connection }

def writeMaskedPong (payload : List UInt8) (ws : WebSocket) : Except VerificationError WebSocket := do
  ensure (payload.length ≤ 125) .protocol
  orThrow .unavailable ws.write

/-- The bytes that are still to be taken. -/
def WebSocket.left (ws : WebSocket) : Nat := ws.pending.length + ws.connection.arriving.length

theorem readExact_left {n : Nat} {arriving arriving' out : List UInt8} {reads reads' : List Nat}
    (h : readExact n arriving reads = some (out, arriving', reads')) :
    arriving'.length + n = arriving.length := by
  induction reads generalizing n arriving out arriving' reads' with
  | nil =>
    cases n with
    | zero => simp [readExact] at h; simp [h]
    | succ n => simp [readExact] at h
  | cons size reads ih =>
    cases n with
    | zero => simp [readExact] at h; simp [h]
    | succ n =>
      simp only [readExact] at h
      split at h
      · cases h
      · obtain ⟨⟨out', arriving'', reads''⟩, hrest, heq⟩ := Option.map_eq_some_iff.1 h
        have hleft := ih hrest
        simp only [Prod.mk.injEq] at heq
        obtain ⟨-, rfl, rfl⟩ := heq
        simp only [List.length_take, List.length_drop] at hleft
        omega

theorem readExactPrefixed_left {n : Nat} {ws ws' : WebSocket} {out : List UInt8}
    (h : readExactPrefixed n ws = .ok (out, ws')) : ws'.left + n = ws.left := by
  simp only [readExactPrefixed, bind_ok, orThrow_ok] at h
  obtain ⟨⟨rest, arriving, reads⟩, hread, heq⟩ := h
  have hleft := readExact_left hread
  simp only [Except.ok.injEq, Prod.mk.injEq] at heq
  obtain ⟨-, rfl⟩ := heq
  simp only [List.length_take, WebSocket.left, List.length_drop] at hleft ⊢
  omega

theorem readFrameLength_left {code length : Nat} {ws ws' : WebSocket}
    (h : readFrameLength code ws = .ok (length, ws')) : ws'.left ≤ ws.left := by
  unfold readFrameLength at h
  split at h
  · simp only [bind_ok] at h
    obtain ⟨⟨extended, ws''⟩, hread, -, -, heq⟩ := h
    simp only [Except.ok.injEq, Prod.mk.injEq] at heq
    obtain ⟨-, rfl⟩ := heq
    have := readExactPrefixed_left hread
    omega
  · split at h
    · simp only [bind_ok] at h
      obtain ⟨⟨extended, ws''⟩, hread, -, -, heq⟩ := h
      simp only [Except.ok.injEq, Prod.mk.injEq] at heq
      obtain ⟨-, rfl⟩ := heq
      have := readExactPrefixed_left hread
      omega
    · cases h
      exact Nat.le_refl _

/-- A frame takes two bytes at least. -/
theorem readServerFrame_left {ws ws' : WebSocket} {frame : ServerFrame}
    (h : readServerFrame ws = .ok (frame, ws')) : ws'.left < ws.left := by
  simp only [readServerFrame, bind_ok] at h
  obtain ⟨⟨start, ws₁⟩, hstart, -, -, -, -, ⟨length, ws₂⟩, hlength, -, -, ⟨payload, ws₃⟩, hpayload, heq⟩ := h
  simp only [Except.ok.injEq, Prod.mk.injEq] at heq
  obtain ⟨-, rfl⟩ := heq
  have h₁ : ws₁.left + 2 = ws.left := readExactPrefixed_left hstart
  have h₂ : ws₂.left ≤ ws₁.left := readFrameLength_left hlength
  have h₃ : ws₃.left + length = ws₂.left := readExactPrefixed_left hpayload
  omega

theorem assembleTextFrame_left {frame : ServerFrame} {ws ws' : WebSocket} {message : Option (List UInt8)}
    (h : assembleTextFrame frame ws = .ok (message, ws')) : ws'.left = ws.left := by
  unfold assembleTextFrame at h
  split at h
  · split at h <;> cases h <;> rfl
  · split at h
    · simp only [bind_ok] at h
      obtain ⟨payload, -, -, -, heq⟩ := h
      split at heq <;> cases heq <;> rfl
    · cases h

theorem writeMaskedPong_left {payload : List UInt8} {ws ws' : WebSocket}
    (h : writeMaskedPong payload ws = .ok ws') : ws'.left = ws.left := by
  simp only [writeMaskedPong, bind_ok, orThrow_ok, WebSocket.write, Option.map_eq_some_iff] at h
  obtain ⟨-, -, connection, hwrite, rfl⟩ := h
  unfold Connection.write at hwrite
  split at hwrite
  · cases hwrite
    rfl
  · cases hwrite

/-- What a frame the client could not read makes of the attempt. -/
def frameFailure (requestSubmitted : Bool) : VerificationError → AttemptFailure
  | .unavailable => if requestSubmitted then ambiguousAfterCommit else .again .unavailable
  | _ => protocolFailure requestSubmitted

/-- `read_tts_event`: the next text message, as JSON. -/
def readTtsEvent (libs : Libs) (requestSubmitted : Bool) (ws : WebSocket) :
    Except AttemptFailure (Json × WebSocket) :=
  match _hframe : readServerFrame ws with
  | .error e => .error (frameFailure requestSubmitted e)
  | .ok (frame, ws₁) =>
    if frame.opcode = 0x0 ∨ frame.opcode = 0x1 then
      match _hmessage : assembleTextFrame frame ws₁ with
      | .error _ => .error (protocolFailure requestSubmitted)
      | .ok (some payload, ws₂) => do
        let event ← orThrow (protocolFailure requestSubmitted) (libs.parseJson payload)
        .ok (event, ws₂)
      | .ok (none, ws₂) => readTtsEvent libs requestSubmitted ws₂
    else if frame.opcode = 0x9 then
      match _hpong : writeMaskedPong frame.payload ws₁ with
      | .error _ =>
        .error (if requestSubmitted then ambiguousAfterCommit else .again .unavailable)
      | .ok ws₂ => readTtsEvent libs requestSubmitted ws₂
    else if frame.opcode = 0xA then readTtsEvent libs requestSubmitted ws₁
    else .error (protocolFailure requestSubmitted)
termination_by ws.left
decreasing_by
  · have := readServerFrame_left _hframe
    have := assembleTextFrame_left _hmessage
    omega
  · have := readServerFrame_left _hframe
    have := writeMaskedPong_left _hpong
    omega
  · exact readServerFrame_left _hframe

theorem readTtsEvent_left {libs : Libs} {requestSubmitted : Bool} {ws ws' : WebSocket} {event : Json}
    (h : readTtsEvent libs requestSubmitted ws = .ok (event, ws')) : ws'.left < ws.left := by
  fun_induction readTtsEvent libs requestSubmitted ws with
  | case1 => cases h
  | case2 => cases h
  | case3 ws frame ws₁ hframe _ payload ws₂ hmessage =>
    simp only [bind_ok] at h
    obtain ⟨event, -, heq⟩ := h
    cases heq
    have := readServerFrame_left hframe
    have := assembleTextFrame_left hmessage
    omega
  | case4 ws frame ws₁ hframe _ ws₂ hmessage ih =>
    have := ih h
    have := readServerFrame_left hframe
    have := assembleTextFrame_left hmessage
    omega
  | case5 => cases h
  | case6 ws frame ws₁ hframe _ _ ws₂ hpong ih =>
    have := ih h
    have := readServerFrame_left hframe
    have := writeMaskedPong_left hpong
    omega
  | case7 ws frame ws₁ hframe _ _ _ ih =>
    have := ih h
    have := readServerFrame_left hframe
    omega
  | case8 => cases h

/-! ### Client events -/

def sessionUpdateEvent (eventId : String) (request : TtsRequest) : Text :=
  jsonObject [
    ("event_id", jsonWord eventId),
    ("session", jsonObject [
      ("instructions", jsonWord request.instructions), ("language_type", jsonWord "Auto"),
      ("mode", jsonWord "commit"), ("optimize_instructions", "false".toList),
      ("response_format", jsonWord "pcm"), ("sample_rate", (toString ttsSampleRate).toList),
      ("voice", jsonWord request.voice)]),
    ("type", jsonWord "session.update")]

def appendEvent (eventId : String) (request : TtsRequest) : Text :=
  jsonObject [("event_id", jsonWord eventId), ("text", jsonWord request.text),
    ("type", jsonWord "input_text_buffer.append")]

def commitEvent (eventId : String) : Text :=
  jsonObject [("event_id", jsonWord eventId), ("type", jsonWord "input_text_buffer.commit")]

/-- `send_client_event`, with `write_masked_text`. -/
def sendClientEvent (payload : Text) (ws : WebSocket) : Except AttemptFailure WebSocket := do
  ensure (size payload ≤ maxServerEventBytes) (AttemptFailure.terminal .invalidRequest)
  orThrow (AttemptFailure.terminal .unavailable) ws.write

/-! ### Server events -/

structure TtsSessionState where
  model : String
  sessionId : String
  responseId : Option String := none
  itemId : Option String := none
  committed : Bool := false
  requestSubmitted : Bool := false
  outputItemAdded : Bool := false
  contentPartAdded : Bool := false
  audioDone : Bool := false
  contentPartDone : Bool := false
  outputItemDone : Bool := false
  responseDone : Bool := false
  receivedAudio : Bool := false
  characters : Option Nat := none
  serverEventIds : List String
  serverEvents : Nat := 1
  audioDeltas : Nat := 0
  pcm : List UInt8 := []
  deriving DecidableEq, Repr

namespace TtsSessionState

/-- `protocol_failure(state.request_submitted)`. -/
def failure (state : TtsSessionState) : AttemptFailure := protocolFailure state.requestSubmitted

end TtsSessionState

def validServiceEventId (value : String) : Bool :=
  value ≠ "" && decide (value.utf8ByteSize ≤ 256) && value.toList.all fun c =>
    decide (c.val < 0x80) && (c.isAlphanum || c == '-' || c == '_' || c == '.' || c == ':')

def serviceId (value : Option Json) (requestSubmitted : Bool) : Except AttemptFailure String :=
  orThrow (protocolFailure requestSubmitted) ((value.bind Json.asStr).filter validServiceEventId)

def requireServiceId (value : Option Json) (allowEmpty requestSubmitted : Bool) :
    Except AttemptFailure Unit := do
  let value ← orThrow (protocolFailure requestSubmitted) (value.bind Json.asStr)
  ensure ((allowEmpty = true ∧ value = "") ∨ validServiceEventId value = true)
    (protocolFailure requestSubmitted)

/-- A string at a path of an event. -/
def textAt (event : Json) (path : List String) : Option String := (event.pointer path).bind Json.asStr

/-- A number at a path of an event. -/
def numberAt (event : Json) (path : List String) : Option Nat := (event.pointer path).bind Json.asU64

/-- `parse_created`: the model, the session and the event. -/
def parseCreated (event : Json) : Except AttemptFailure (String × String × String) := do
  ensure (textAt event ["type"] = some "session.created") (AttemptFailure.terminal .protocol)
  let eventId ← serviceId (event.get "event_id") false
  let model ← orThrow (AttemptFailure.terminal .protocol)
    ((textAt event ["session", "model"]).filter fun model =>
      model = legacyTtsModel ∨ model = legacyTtsModelSnapshot)
  let sessionId ← serviceId (event.pointer ["session", "id"]) false
  .ok (model, sessionId, eventId)

def registerEvent (event : Json) (state : TtsSessionState) : Except AttemptFailure TtsSessionState := do
  ensure (state.serverEvents < maxTtsServerEvents) state.failure
  let eventId ← serviceId (event.get "event_id") state.requestSubmitted
  ensure (eventId ∉ state.serverEventIds) state.failure
  .ok { state with
    serverEventIds := eventId :: state.serverEventIds, serverEvents := state.serverEvents + 1 }

def validateUpdated (event : Json) (state : TtsSessionState) (voice : String) :
    Except AttemptFailure Unit := do
  let session ← orThrow (protocolFailure false) (event.get "session")
  ensure (textAt event ["type"] = some "session.updated" ∧ textAt session ["id"] = some state.sessionId ∧
    textAt session ["model"] = some state.model ∧ textAt session ["voice"] = some voice ∧
    textAt session ["mode"] = some "commit" ∧ textAt session ["response_format"] = some "pcm" ∧
    numberAt session ["sample_rate"] = some ttsSampleRate) (protocolFailure false)

/-- The branch for `input_text_buffer.committed`. -/
def markCommitted (event : Json) (state : TtsSessionState) : Except AttemptFailure TtsSessionState := do
  ensure (state.committed = false ∧ state.responseId = none) state.failure
  requireServiceId (event.get "item_id") true state.requestSubmitted
  .ok { state with committed := true }

def parseResponseCreated (voice : String) (event : Json) (state : TtsSessionState) :
    Except AttemptFailure TtsSessionState := do
  ensure (state.committed = true ∧ state.responseId = none) state.failure
  let response ← orThrow state.failure (event.get "response")
  let responseId ← serviceId (response.get "id") state.requestSubmitted
  ensure (textAt response ["object"] = some "realtime.response" ∧
    textAt response ["status"] = some "in_progress" ∧ textAt response ["voice"] = some voice ∧
    (((response.get "output").bind Json.asArray).any List.isEmpty) = true) state.failure
  .ok { state with responseId := some responseId }

def bindItemId (itemId : String) (state : TtsSessionState) : Except AttemptFailure TtsSessionState :=
  match state.itemId with
  | some existing => if existing = itemId then .ok state else .error state.failure
  | none => .ok { state with itemId := some itemId }

/-- `response.content_part.added` and `.done`. -/
def contentPart (done : Bool) (event : Json) (state : TtsSessionState) :
    Except AttemptFailure TtsSessionState := do
  let lifecycleValid :=
    if done then
      state.outputItemAdded && state.contentPartAdded && state.audioDone && !state.contentPartDone &&
        !state.outputItemDone
    else
      state.outputItemAdded && !state.contentPartAdded && !state.receivedAudio && !state.audioDone &&
        !state.contentPartDone && !state.outputItemDone
  ensure (lifecycleValid = true) state.failure
  let itemId ← serviceId (event.get "item_id") state.requestSubmitted
  let state ← bindItemId itemId state
  ensure (numberAt event ["content_index"] = some 0 ∧ textAt event ["part", "type"] = some "audio")
    state.failure
  if done then .ok { state with contentPartDone := true } else .ok { state with contentPartAdded := true }

/-- `response.output_item.added` and `.done`. -/
def outputItem (done : Bool) (event : Json) (state : TtsSessionState) :
    Except AttemptFailure TtsSessionState := do
  let lifecycleValid :=
    if done then state.outputItemAdded && state.contentPartDone && !state.outputItemDone
    else
      !state.outputItemAdded && !state.contentPartAdded && !state.receivedAudio && !state.audioDone &&
        !state.contentPartDone && !state.outputItemDone
  ensure (lifecycleValid = true) state.failure
  let itemId ← serviceId (event.pointer ["item", "id"]) state.requestSubmitted
  let state ← bindItemId itemId state
  ensure (textAt event ["item", "object"] = some "realtime.item" ∧
    textAt event ["item", "type"] = some "message" ∧ textAt event ["item", "role"] = some "assistant" ∧
    textAt event ["item", "status"] = some (if done then "completed" else "in_progress")) state.failure
  if done then .ok { state with outputItemDone := true } else .ok { state with outputItemAdded := true }

def validateResponseScaffold (event : Json) (state : TtsSessionState) :
    Except AttemptFailure TtsSessionState := do
  let responseId ← orThrow state.failure state.responseId
  ensure (textAt event ["response_id"] = some responseId) state.failure
  ensure (numberAt event ["output_index"] = some 0) state.failure
  if textAt event ["type"] = some "response.content_part.added" then contentPart false event state
  else if textAt event ["type"] = some "response.content_part.done" then contentPart true event state
  else if textAt event ["type"] = some "response.output_item.added" then outputItem false event state
  else if textAt event ["type"] = some "response.output_item.done" then outputItem true event state
  else .error state.failure

def validateAudioIdentity (event : Json) (state : TtsSessionState) :
    Except AttemptFailure TtsSessionState := do
  let responseId ← orThrow state.failure state.responseId
  let itemId ← serviceId (event.get "item_id") state.requestSubmitted
  ensure (textAt event ["response_id"] = some responseId ∧ numberAt event ["output_index"] = some 0 ∧
    numberAt event ["content_index"] = some 0) state.failure
  bindItemId itemId state

def appendAudioDelta (libs : Libs) (event : Json) (state : TtsSessionState) :
    Except AttemptFailure TtsSessionState := do
  let state ← validateAudioIdentity event state
  ensure (state.outputItemAdded = true ∧ state.contentPartAdded = true ∧ state.audioDone = false)
    state.failure
  ensure (state.audioDeltas < maxTtsAudioDeltas) state.failure
  let delta ← orThrow state.failure (textAt event ["delta"])
  let decoded ← orThrow state.failure (libs.decodeBase64 delta)
  ensure (decoded ≠ [] ∧ decoded.length % 2 = 0) state.failure
  ensure (state.pcm.length + decoded.length ≤ maxTtsPcmBytes) ambiguousAfterCommit
  .ok { state with
    audioDeltas := state.audioDeltas + 1, pcm := state.pcm ++ decoded, receivedAudio := true }

def markAudioDone (event : Json) (state : TtsSessionState) : Except AttemptFailure TtsSessionState := do
  let state ← validateAudioIdentity event state
  ensure (state.outputItemAdded = true ∧ state.contentPartAdded = true ∧ state.audioDone = false ∧
    state.receivedAudio = true ∧ state.contentPartDone = false ∧ state.outputItemDone = false)
    state.failure
  .ok { state with audioDone := true }

def markResponseDone (event : Json) (state : TtsSessionState) :
    Except AttemptFailure TtsSessionState := do
  ensure (state.audioDone = true ∧ state.contentPartDone = true ∧ state.outputItemDone = true ∧
    state.responseDone = false) state.failure
  let response ← orThrow state.failure (event.get "response")
  ensure (textAt response ["id"] = state.responseId ∧
    textAt response ["object"] = some "realtime.response" ∧
    textAt response ["status"] = some "completed") state.failure
  .ok { state with characters := numberAt response ["usage", "characters"], responseDone := true }

/-- `code.contains(part)`. -/
def contains (code part : String) : Bool := decide (part.toList <:+: code.toList)

def classifyTtsServiceError (event : Json) (requestSubmitted : Bool) : AttemptFailure :=
  let code := ((textAt event ["error", "code"]).getD "").toLower
  let kind : TtsError :=
    if contains code "rate" || contains code "throttl" || contains code "429" then .rateLimited
    else if contains code "auth" || contains code "credential" || contains code "401" then .rejected
    else if contains code "server" || contains code "internal" || contains code "unavailable" then
      .unavailable
    else .protocol
  if requestSubmitted then ambiguousAfterCommit
  else if kind = .rateLimited ∨ kind = .unavailable then .again kind
  else .terminal kind

/-! ### The session -/

/-- One turn of the loop over the server's events, once the event is registered. -/
def handleEvent (libs : Libs) (voice : String) (event : Json) (state : TtsSessionState) :
    Except AttemptFailure TtsSessionState := do
  let eventType ← orThrow (protocolFailure true) (textAt event ["type"])
  if eventType = "input_text_buffer.committed" then markCommitted event state
  else if eventType = "response.created" then parseResponseCreated voice event state
  else if eventType ∈ ["response.output_item.added", "response.content_part.added",
      "response.content_part.done", "response.output_item.done"] then
    validateResponseScaffold event state
  else if eventType = "response.audio.delta" then appendAudioDelta libs event state
  else if eventType = "response.audio.done" then markAudioDone event state
  else if eventType = "response.done" then markResponseDone event state
  else if eventType = "error" then .error (classifyTtsServiceError event state.requestSubmitted)
  else .error state.failure

/-- The loop over the server's events after the commit. -/
def listen (libs : Libs) (voice : String) (state : TtsSessionState) (ws : WebSocket) :
    Except AttemptFailure TtsSessionState :=
  if state.responseDone then .ok state
  else
    match _hevent : readTtsEvent libs true ws with
    | .error failure => .error failure
    | .ok (event, ws') => do
      let state ← registerEvent event state
      let state ← handleEvent libs voice event state
      listen libs voice state ws'
termination_by ws.left
decreasing_by exact readTtsEvent_left _hevent

/-- `run_tts_session` up to the commit. -/
def openTtsSession (libs : Libs) (request : TtsRequest) (eventId : Nat → String) (ws : WebSocket) :
    Except AttemptFailure (TtsSessionState × WebSocket) := do
  let (created, ws) ← readTtsEvent libs false ws
  let (model, sessionId, event) ← parseCreated created
  let ws ← (sendClientEvent (sessionUpdateEvent (eventId 0) request) ws).mapError retryBeforeCommit
  let (updated, ws) ← readTtsEvent libs false ws
  let state ← registerEvent updated { model, sessionId, serverEventIds := [event] }
  validateUpdated updated state request.voice
  let ws ← (sendClientEvent (appendEvent (eventId 1) request) ws).mapError retryBeforeCommit
  .ok (state, ws)

/-- `run_tts_session` from the commit on, whose write may reach the service even where it fails. -/
def commitTtsSession (libs : Libs) (request : TtsRequest) (transport : TransportRoute)
    (eventId : Nat → String) (state : TtsSessionState) (ws : WebSocket) :
    Except AttemptFailure TtsAudio := do
  let ws ← (sendClientEvent (commitEvent (eventId 2)) ws).mapError fun _ => ambiguousAfterCommit
  let state ← listen libs request.voice { state with requestSubmitted := true } ws
  ensure (state.pcm.length / 2 < 2 ^ 64) ambiguousAfterCommit
  .ok ⟨state.pcm, ⟨state.model, request.voice, ttsSampleRate, state.pcm.length / 2, state.characters,
    transport, 1⟩⟩

end CodexKeyboard.Tts
