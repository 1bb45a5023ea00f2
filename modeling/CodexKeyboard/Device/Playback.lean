import CodexKeyboard.Device.SlotState
import CodexKeyboard.Lan.Wire
import CodexKeyboard.Schemes.Chunks

/-! `CodexLanPlayback`: the keyboard's side of a playback transfer, run by its main task.

    A call gets what the platform does in it (`DeviceIo`): the clock, the socket, the allocator, the
    speaker and the Wi-Fi service. The receiver drives the slots, so they are one state. -/

namespace CodexKeyboard.Device

open Lan

def requestRetryMs : Nat := 500
def receiveTimeoutMs : Nat := 30000
def finishedRetryMs : Nat := 500
def cancelRetryMs : Nat := 100
def maximumRequestRetries : Nat := 12
def maximumFinishedRetries : Nat := 120
def maximumCancelRetries : Nat := 20
def streamingPrebufferBytes : Nat := 24 * 1024

inductive Phase where
  | idle | awaitBegin | receiving | playing | finishedPendingAck | cancelling
  deriving DecidableEq, Repr

def noIdentity : PlaybackIdentity := ⟨0, 0, 0, 0, 0⟩
def noRequest : PlaybackRequest := ⟨0, 0, 0, 0⟩
def noBegin : PlaybackBegin := ⟨noIdentity, 0, 0, 0, 0⟩
def noHost : SocketAddr := ⟨0, 0⟩

/-- `encoded` is the block behind `encoded_`, empty while none is allocated. -/
structure CodexLanPlayback where
  phase : Phase := .idle
  host : SocketAddr := noHost
  request : PlaybackRequest := noRequest
  start : PlaybackBegin := noBegin
  encoded : List UInt8 := []
  receivedBytes : Nat := 0
  lastSendMs : Nat := 0
  requestRetries : Nat := 0
  finishedRetries : Nat := 0
  cancelRetries : Nat := 0
  cancelAcknowledged : Bool := false
  failureDiagnostic : Nat := 0
  deferredSlot : Nat := 0
  deferredRequestGeneration : Nat := 0
  deferredConnectionGeneration : Nat := 0

structure Keyboard where
  slots : CodexSlotState := {}
  playback : CodexLanPlayback := {}

/-- What the platform does in one call. `send i` is the `i`-th `sendto`, `memory` the contents of a
    fresh block (or no block), `route` the host of a usable Wi-Fi service. -/
structure DeviceIo where
  now : Nat
  send : Nat → Bool
  memory : Option (Nat → UInt8)
  speakerReady : Bool
  speakerRequest : Except Nat Unit
  speakerBusy : Bool
  speakerSucceeded : Bool
  route : Option SocketAddr
  nonce : Nat

structure DeviceReaction where
  state : Keyboard
  sent : List Packet

/-- The reasons of `fail`, by the diagnostic they carry. -/
inductive Failure where
  | socketReceive | beginTimeout | dataTimeout | beginAck | dataAck | psramAllocate | speakerFailed
  | finishedSend | finishedTimeout | other
  deriving DecidableEq, Repr

def Failure.diagnostic : Failure → Nat
  | .socketReceive => 20
  | .beginTimeout => 21
  | .dataTimeout => 22
  | .beginAck => 23
  | .dataAck => 24
  | .psramAllocate => 25
  | .speakerFailed => 26
  | .finishedSend => 27
  | .finishedTimeout => 28
  | .other => 29

/-- `now - last`, on 32-bit milliseconds. -/
def elapsed (now last : Nat) : Nat := (now + 2 ^ 32 - last % 2 ^ 32) % 2 ^ 32

namespace CodexLanPlayback

def slotIdentity (p : CodexLanPlayback) : SlotIdentity where
  slot := p.start.identity.slot
  summaryGeneration := p.start.identity.summaryGeneration
  lease := p.start.identity.lease
  connectionGeneration := p.start.identity.connectionGeneration

/-- The EIPA of `send_ack`. -/
def ackPacket (p : CodexLanPlayback) (status : Nat) : PlaybackAck where
  identity := p.start.identity
  status := status
  nextOffset :=
    if status = 3 ∧ p.failureDiagnostic ≠ 0 then 0xEC000000 ||| p.failureDiagnostic
    else p.receivedBytes

/-- `send_ack` as the `i`-th datagram of the call. -/
def sendAck (io : DeviceIo) (i : Nat) (p : CodexLanPlayback) (status : Nat) : Bool × List Packet :=
  if validIdentity p.start.identity && decide (status ≤ 3) && io.send i then
    (true, [.eipa (p.ackPacket status)])
  else (false, [])

def sendFinished (io : DeviceIo) (i : Nat) (p : CodexLanPlayback) : Bool × List Packet :=
  if validIdentity p.start.identity && p.start.totalSamples != 0 && io.send i then
    (true, [.eipf ⟨p.start.identity, p.start.totalSamples⟩])
  else (false, [])

def sendRequest (io : DeviceIo) (i : Nat) (p : CodexLanPlayback) : Bool × List Packet :=
  if requestOk p.request && io.send i then (true, [.eipr p.request]) else (false, [])

/-- `(total_bytes + chunk_bytes - 1) / chunk_bytes`. -/
def frameCount (start : PlaybackBegin) : Nat :=
  (start.totalBytes + start.chunkBytes - 1) / start.chunkBytes

/-- `playback_data_matches_received_prefix`. -/
def matchesReceivedPrefix (p : CodexLanPlayback) (data : PlaybackData) : Bool :=
  !data.payload.isEmpty && decide (data.offset < p.receivedBytes) &&
  decide (data.payload.length ≤ p.receivedBytes - data.offset) &&
  (p.encoded.drop data.offset).take data.payload.length == data.payload

end CodexLanPlayback

namespace Keyboard

open CodexLanPlayback

def keep (k : Keyboard) : DeviceReaction := ⟨k, []⟩

/-- `cleanup(false)`. -/
def cleanup (k : Keyboard) : Keyboard :=
  { k with playback := {
      deferredSlot := k.playback.deferredSlot
      deferredRequestGeneration := k.playback.deferredRequestGeneration
      deferredConnectionGeneration := k.playback.deferredConnectionGeneration
      lastSendMs := k.playback.lastSendMs } }

/-- `fail`; its datagram is the `i`-th of the call. -/
def fail (io : DeviceIo) (i : Nat) (k : Keyboard) (reason : Failure) : DeviceReaction :=
  let p := { k.playback with
    failureDiagnostic :=
      if k.playback.failureDiagnostic = 0 then reason.diagnostic else k.playback.failureDiagnostic
    phase := .cancelling
    cancelAcknowledged := false
    lastSendMs := io.now }
  let (sent, packets) :=
    if validPlaybackIdentity p.slotIdentity then sendAck io i p 3 else (false, [])
  ⟨{ slots := if validPlaybackIdentity p.slotIdentity then (k.slots.abortPlayback p.slotIdentity).2
              else k.slots
     playback := { p with cancelRetries := if sent then 1 else 0 } }, packets⟩

/-! ### Datagrams -/

/-- The begin answers the request that is out. -/
def answersRequest (p : CodexLanPlayback) (start : PlaybackBegin) : Bool :=
  start.identity.slot == p.request.slot &&
  start.identity.requestGeneration == p.request.requestGeneration &&
  start.identity.connectionGeneration == p.request.connectionGeneration &&
  start.requestNonce == p.request.nonce

def sameTransfer (p : CodexLanPlayback) (start : PlaybackBegin) : Bool :=
  start.identity == p.start.identity && start.totalBytes == p.start.totalBytes &&
  start.totalSamples == p.start.totalSamples && start.requestNonce == p.start.requestNonce

def slotBegin (start : PlaybackBegin) : SlotBegin where
  identity :=
    { slot := start.identity.slot
      summaryGeneration := start.identity.summaryGeneration
      lease := start.identity.lease
      connectionGeneration := start.identity.connectionGeneration }
  requestGeneration := start.identity.requestGeneration
  totalFrames := frameCount start
  totalSamples := start.totalSamples

/-- The slots have taken the transfer: allocate its block and acknowledge. -/
def openTransfer (io : DeviceIo) (k : Keyboard) (start : PlaybackBegin) (slots : CodexSlotState) :
    DeviceReaction :=
  let p := { k.playback with start := start }
  match io.memory with
  | none => fail io 0 ⟨(slots.abortPlayback p.slotIdentity).2, p⟩ .psramAllocate
  | some contents =>
    let p := { p with
      encoded := (List.range start.totalBytes).map contents
      receivedBytes := 0
      phase := .receiving
      lastSendMs := io.now }
    match sendAck io 0 p 0 with
    | (true, packets) => ⟨⟨slots, p⟩, packets⟩
    | (false, _) => fail io 1 ⟨slots, p⟩ .beginAck

def handleBegin (io : DeviceIo) (k : Keyboard) (start : PlaybackBegin) : DeviceReaction :=
  let p := k.playback
  if !beginOk start || !answersRequest p start then keep k
  else if (p.phase = .receiving ∨ p.phase = .playing) ∧ sameTransfer p start then
    ⟨k, (sendAck io 0 p 0).2⟩
  else if p.phase ≠ .awaitBegin then keep k
  else
    match k.slots.beginPlayback (slotBegin start) with
    | (.accepted, slots) => openTransfer io k start slots
    | (_, slots) => ⟨⟨slots, { p with start := noBegin }⟩, []⟩

/-- `begin_speaker_playback`. -/
def beginSpeakerPlayback (io : DeviceIo) (k : Keyboard) : Bool × Keyboard :=
  let clear := { k.playback with failureDiagnostic := 0 }
  if !io.speakerReady then (false, { k with playback := { clear with failureDiagnostic := 1 } })
  else
    match io.speakerRequest with
    | .error code => (false, { k with playback := { clear with failureDiagnostic := 10 + code } })
    | .ok _ =>
      match k.slots.markPlaybackStarted k.playback.slotIdentity with
      | (false, slots) => (false, ⟨slots, { clear with failureDiagnostic := 2 }⟩)
      | (true, slots) => (true, ⟨slots, { clear with phase := .playing }⟩)

/-- `mark_transfer_complete`. -/
def markTransferComplete (k : Keyboard) : Bool × Keyboard :=
  let frames := frameCount k.playback.start
  if frames = 0 then (false, { k with playback := { k.playback with failureDiagnostic := 3 } })
  else
    match k.slots.markPlaybackTransferComplete k.playback.slotIdentity (frames - 1) with
    | (true, slots) => (true, { k with slots := slots })
    | (false, slots) => (false, ⟨slots, { k.playback with failureDiagnostic := 3 }⟩)

/-- The end of `handle_data`: complete the transfer with its last byte. -/
def finishData (io : DeviceIo) (k : Keyboard) (sent : List Packet) : DeviceReaction :=
  if k.playback.receivedBytes = k.playback.start.totalBytes then
    match markTransferComplete k with
    | (true, k) => ⟨k, sent⟩
    | (false, k) =>
      let r := fail io 1 k .other
      ⟨r.state, sent ++ r.sent⟩
  else ⟨k, sent⟩

/-- `handle_data` past its acknowledgement: start the speaker once enough is buffered. -/
def playData (io : DeviceIo) (k : Keyboard) (sent : List Packet) : DeviceReaction :=
  if k.playback.phase = .receiving ∧
      min k.playback.start.totalBytes streamingPrebufferBytes ≤ k.playback.receivedBytes then
    match beginSpeakerPlayback io k with
    | (true, k) => finishData io k sent
    | (false, k) =>
      let r := fail io 1 k .other
      ⟨r.state, sent ++ r.sent⟩
  else finishData io k sent

/-- The next chunk in order. -/
def takeChunk (io : DeviceIo) (k : Keyboard) (data : PlaybackData) : DeviceReaction :=
  let p := k.playback
  match k.slots.acceptPlaybackFrame p.slotIdentity (p.receivedBytes / p.start.chunkBytes) with
  | (.accepted, slots) =>
    let p := { p with
      -- memcpy(encoded_ + received_bytes_, data.payload, data.payload_length)
      encoded := Schemes.Chunks.splice p.encoded p.receivedBytes data.payload
      receivedBytes := p.receivedBytes + data.payload.length
      lastSendMs := io.now }
    match sendAck io 0 p 0 with
    | (true, packets) => playData io ⟨slots, p⟩ packets
    | (false, _) => fail io 1 ⟨slots, p⟩ .dataAck
  | (_, slots) => ⟨⟨slots, p⟩, (sendAck io 0 p 2).2⟩

def handleData (io : DeviceIo) (k : Keyboard) (data : PlaybackData) : DeviceReaction :=
  let p := k.playback
  if !decodeData p.start.requestNonce data || data.identity != p.start.identity then keep k
  else if data.offset < p.receivedBytes then
    if (p.phase = .receiving ∨ p.phase = .playing ∨ p.phase = .finishedPendingAck) ∧
        matchesReceivedPrefix p data then ⟨k, (sendAck io 0 p 0).2⟩
    else keep k
  else if p.phase ≠ .receiving ∧ p.phase ≠ .playing then keep k
  else if data.offset ≠ p.receivedBytes ∨ p.start.totalBytes - p.receivedBytes < data.payload.length then
    ⟨k, (sendAck io 0 p 1).2⟩
  else takeChunk io k data

def handleFinishedAck (k : Keyboard) (identity : PlaybackIdentity) (status : Nat) : DeviceReaction :=
  let p := k.playback
  if !finishedAckOk identity status || identity != p.start.identity then keep k
  else if p.phase = .cancelling ∧ status = 1 then
    keep { k with playback := { p with cancelAcknowledged := true } }
  else if p.phase ≠ .finishedPendingAck ∨ status ≠ 0 then keep k
  else
    match k.slots.acknowledgeFinished p.slotIdentity with
    | (true, slots) => keep (cleanup { k with slots := slots })
    | (false, _) => keep k

/-- One datagram of `receive_packets`; nothing is received without a socket. -/
def receive (io : DeviceIo) (k : Keyboard) (packet : Packet) : DeviceReaction :=
  if k.playback.phase = .idle then keep k
  else
    match packet with
    | .eipb start => handleBegin io k start
    | .eipd data => handleData io k data
    | .eipk identity status => handleFinishedAck k identity status
    | .eipr _ | .eipa _ | .eipf _ => keep k

/-! ### Requests, preemption and time -/

/-- `request` on a receiver that is idle. -/
def openRequest (io : DeviceIo) (i : Nat) (k : Keyboard) (request : PlaybackRequest) : DeviceReaction :=
  match io.route with
  | none => keep k
  | some host =>
    let p := { k.playback with
      host := host
      request := request }
    match sendRequest io i p with
    | (true, packets) =>
      ⟨{ k with playback := { p with
          phase := .awaitBegin
          requestRetries := 0
          lastSendMs := io.now } }, packets⟩
    | (false, _) => keep (cleanup { k with playback := p })

def request (io : DeviceIo) (i : Nat) (k : Keyboard) (slot requestGeneration connectionGeneration : Nat) :
    DeviceReaction :=
  if !(decide (1 ≤ slot) && decide (slot ≤ 4)) || requestGeneration == 0 ||
      connectionGeneration == 0 then keep k
  else
    let wanted : PlaybackRequest := ⟨slot, requestGeneration, connectionGeneration, io.nonce⟩
    match k.playback.phase with
    | .cancelling =>
      keep { k with playback := { k.playback with
        deferredSlot := slot
        deferredRequestGeneration := requestGeneration
        deferredConnectionGeneration := connectionGeneration } }
    | .awaitBegin => openRequest io i (cleanup k) wanted
    | .idle => openRequest io i k wanted
    | .receiving | .playing | .finishedPendingAck => keep k

def preempt (io : DeviceIo) (i : Nat) (k : Keyboard) (identity : SlotIdentity) : DeviceReaction :=
  if k.playback.phase = .idle then keep k
  else
    let p := { k.playback with
      deferredSlot := 0
      deferredRequestGeneration := 0
      deferredConnectionGeneration := 0 }
    if validPlaybackIdentity identity ∧ p.slotIdentity ≠ identity then keep { k with playback := p }
    else
      let packets := if validPlaybackIdentity p.slotIdentity then (sendAck io i p 3).2 else []
      ⟨{ k with playback := { p with
          phase := .cancelling
          cancelRetries := 0
          cancelAcknowledged := false
          lastSendMs := io.now } }, packets⟩

/-- The rest of `poll` while a transfer is being given up. -/
def pollCancelling (io : DeviceIo) (k : Keyboard) : DeviceReaction :=
  let p := k.playback
  let named := validPlaybackIdentity p.slotIdentity
  let due := named && !p.cancelAcknowledged && decide (p.cancelRetries < maximumCancelRetries) &&
    decide (cancelRetryMs ≤ elapsed io.now p.lastSendMs)
  let packets := if due then (sendAck io 0 p 3).2 else []
  let p := if due then { p with
      cancelRetries := p.cancelRetries + 1
      lastSendMs := io.now } else p
  if !io.speakerBusy && (!named || p.cancelAcknowledged || decide (maximumCancelRetries ≤ p.cancelRetries))
  then
    let k := cleanup { k with playback := { p with
      deferredSlot := 0
      deferredRequestGeneration := 0
      deferredConnectionGeneration := 0 } }
    if p.deferredSlot ≠ 0 then
      let r := request io 1 k p.deferredSlot p.deferredRequestGeneration p.deferredConnectionGeneration
      ⟨r.state, packets ++ r.sent⟩
    else ⟨k, packets⟩
  else ⟨{ k with playback := p }, packets⟩

/-- `poll` where the speaker has stopped. -/
def pollDrained (io : DeviceIo) (k : Keyboard) : DeviceReaction :=
  let p := k.playback
  if !io.speakerSucceeded then fail io 0 k .speakerFailed
  else
    match k.slots.markPlaybackDrained p.slotIdentity p.start.totalSamples with
    | (false, _) => fail io 0 k .speakerFailed
    | (true, slots) =>
      let p := { p with
        phase := .finishedPendingAck
        finishedRetries := 0 }
      match sendFinished io 0 p with
      | (true, packets) => ⟨⟨slots, { p with lastSendMs := io.now }⟩, packets⟩
      | (false, _) => fail io 1 ⟨slots, p⟩ .finishedSend

/-- The timers of `poll`, after its datagrams. -/
def poll (io : DeviceIo) (k : Keyboard) : DeviceReaction :=
  let p := k.playback
  let waited := elapsed io.now p.lastSendMs
  match p.phase with
  | .idle => keep k
  | .cancelling => pollCancelling io k
  | .awaitBegin =>
    if requestRetryMs ≤ waited then
      match decide (p.requestRetries < maximumRequestRetries), sendRequest io 0 p with
      | true, (true, packets) =>
        ⟨{ k with playback := { p with
            requestRetries := p.requestRetries + 1
            lastSendMs := io.now } }, packets⟩
      | _, _ => fail io 1 k .beginTimeout
    else keep k
  | .receiving =>
    if p.receivedBytes < p.start.totalBytes ∧ receiveTimeoutMs ≤ waited then
      fail io 0 k .dataTimeout
    else keep k
  | .playing =>
    if p.receivedBytes < p.start.totalBytes ∧ receiveTimeoutMs ≤ waited then
      fail io 0 k .dataTimeout
    else if !io.speakerBusy then pollDrained io k
    else keep k
  | .finishedPendingAck =>
    if finishedRetryMs ≤ waited then
      match decide (p.finishedRetries < maximumFinishedRetries), sendFinished io 0 p with
      | true, (true, packets) =>
        ⟨{ k with playback := { p with
            finishedRetries := p.finishedRetries + 1
            lastSendMs := io.now } }, packets⟩
      | _, _ => fail io 1 k .finishedTimeout
    else keep k

/-! ### Keys -/

/-- What `handle_codex_slot_transition` makes of one action, the audio capture left out. -/
def perform (io : DeviceIo) (i : Nat) (k : Keyboard) : DeviceAction → DeviceReaction
  | .pttStarted .. => preempt io i k {}
  | .playbackPreempted playback => preempt io i k playback
  | .playRequested slot requestGeneration connectionGeneration =>
    request io i k slot requestGeneration connectionGeneration
  | .pttEnded .. | .rejectedBusy _ => keep k

/-- The actions of one transition, in order. -/
def performAll (io : DeviceIo) : (i : Nat) → Keyboard → List DeviceAction → DeviceReaction
  | _, k, [] => keep k
  | i, k, action :: rest =>
    let r := perform io i k action
    let r' := performAll io (i + 1) r.state rest
    ⟨r'.state, r.sent ++ r'.sent⟩

end Keyboard

/-- One call of the keyboard's main task. -/
inductive DeviceAct where
  | receive (packet : Packet)
  | receiveError
  | poll
  | input (input : InputId) (phase : InputPhase) (connectionGeneration : Nat)
  | disconnect (connectionGeneration : Nat)
  deriving DecidableEq, Repr

def deviceStep (io : DeviceIo) (k : Keyboard) : DeviceAct → DeviceReaction
  | .receive packet => k.receive io packet
  | .receiveError => if k.playback.phase = .idle then k.keep else k.fail io 0 .socketReceive
  | .poll => k.poll io
  | .input input phase connectionGeneration =>
    let (slots, actions) := k.slots.handleInput input phase connectionGeneration
    Keyboard.performAll io 0 { k with slots := slots } actions
  | .disconnect connectionGeneration =>
    let (slots, actions) := k.slots.disconnect connectionGeneration
    Keyboard.performAll io 0 { k with slots := slots } actions

end CodexKeyboard.Device
