import CodexKeyboard.Lan.Codec
import CodexKeyboard.Schemes.Playout
import CodexKeyboard.Schemes.Recent
import Mathlib.Tactic

/-! `CaptureAssembler`: the Host puts the voice captures of a keyboard together from the audio
    datagrams that get through, and remembers the sessions it is done with. -/

namespace CodexKeyboard.Lan

open Schemes.Bytes Schemes.Playout Schemes.Recent

def audioHeaderBytes : Nat := 32
def audioAuthTagBytes : Nat := 16
def audioEndBytes : Nat := audioHeaderBytes + audioAuthTagBytes
def audioFrameSamples : Nat := 320
def audioFrameBytes : Nat := audioFrameSamples * 2
def audioSampleRate : Nat := 16000
def maxCaptureBytes : Nat := audioSampleRate * 2 * 90
def minCaptureFrames : Nat := 10
def maxCaptureGapFrames : Nat := 10
def maxActiveCaptures : Nat := 4
def maxRetiredSessions : Nat := 128

/-- In milliseconds, as `now` is. -/
def captureAbortTimeout : Nat := 15000

def magicEiau : List UInt8 := [0x45, 0x49, 0x41, 0x55]
def magicEiae : List UInt8 := [0x45, 0x49, 0x41, 0x45]
def magicEihb : List UInt8 := [0x45, 0x49, 0x48, 0x42]

/-- What the assembler answers, of `LanVoiceError`. -/
inductive LanVoiceError where
  | invalidPacket | invalidSession | authentication | invalidSequence | captureLimit
  | captureTooShort
  deriving DecidableEq, Repr

structure CaptureSessionIdentity where
  slot : Nat
  captureGeneration : Nat
  connectionGeneration : Nat
  deriving DecidableEq, Repr

/-! ### The datagrams -/

structure ParsedFrame where
  sessionId : Nat
  identity : CaptureSessionIdentity
  sequence : Nat
  payload : List UInt8
  deriving DecidableEq, Repr

structure ParsedEnd where
  sessionId : Nat
  identity : CaptureSessionIdentity
  finalSequence : Nat
  deriving DecidableEq, Repr

def decodeCaptureSessionIdentity (sessionId : Nat) : Except LanVoiceError CaptureSessionIdentity :=
  if (sessionId >>> 56) % 256 ≠ 0xEC then .error .invalidSession
  else
    let identity : CaptureSessionIdentity := {
      slot := (sessionId >>> 52) &&& 0x0F
      connectionGeneration := (sessionId >>> 32) &&& 0x000FFFFF
      captureGeneration := sessionId % 2 ^ 32 }
    if ¬ (1 ≤ identity.slot ∧ identity.slot ≤ 4) ∨ identity.connectionGeneration = 0 ∨
        identity.captureGeneration = 0 then .error .invalidSession
    else .ok identity

def verifyAudioAuthentication (c : Crypto) (datagram : List UInt8) (authKey : Option (List UInt8)) :
    Except LanVoiceError Unit :=
  match authKey with
  | none => .error .authentication
  | some key =>
    if datagram.length < audioAuthTagBytes then .error .authentication
    else
      let authenticated := datagram.length - audioAuthTagBytes
      if (c.hmac key (datagram.take authenticated)).take audioAuthTagBytes =
          datagram.drop authenticated then .ok ()
      else .error .authentication

def parseAudioFrame (c : Crypto) (datagram : List UInt8) (authKey : Option (List UInt8)) :
    Except LanVoiceError ParsedFrame :=
  if datagram.length ≠ audioHeaderBytes + audioFrameBytes + audioAuthTagBytes ∨
      datagram.take 4 ≠ magicEiau ∨ getU8 datagram 4 ≠ 3 ∨ getU8 datagram 5 ≠ audioHeaderBytes ∨
      getU8 datagram 6 ≠ 1 ∨ getU8 datagram 7 ≠ 1 ∨ getU32 datagram 20 ≠ audioSampleRate ∨
      getU16 datagram 28 ≠ audioFrameSamples ∨ getU16 datagram 30 ≠ audioFrameBytes then
    .error .invalidPacket
  else do
    verifyAudioAuthentication c datagram authKey
    let sessionId := getU64 datagram 8
    let identity ← decodeCaptureSessionIdentity sessionId
    .ok {
      sessionId := sessionId
      identity := identity
      sequence := getU32 datagram 16
      payload := slice datagram audioHeaderBytes audioFrameBytes }

def parseAudioEnd (c : Crypto) (datagram : List UInt8) (authKey : Option (List UInt8)) :
    Except LanVoiceError ParsedEnd :=
  if datagram.length ≠ audioEndBytes ∨ datagram.take 4 ≠ magicEiae ∨ getU8 datagram 4 ≠ 3 ∨
      getU8 datagram 5 ≠ audioHeaderBytes ∨ getU8 datagram 6 ≠ 1 ∨ getU8 datagram 7 ≠ 0 ∨
      getU32 datagram 20 ≠ audioSampleRate ∨ getU16 datagram 28 ≠ 0 ∨ getU16 datagram 30 ≠ 0 then
    .error .invalidPacket
  else do
    verifyAudioAuthentication c datagram authKey
    let sessionId := getU64 datagram 8
    let identity ← decodeCaptureSessionIdentity sessionId
    .ok { sessionId := sessionId, identity := identity, finalSequence := getU32 datagram 16 }

/-! ### The assembler -/

structure ActiveCapture where
  sessionId : Nat
  identity : CaptureSessionIdentity
  source : SocketAddr
  nextSequence : Nat
  pcm : List UInt8
  lastFrameAt : Nat
  finalSequence : Option Nat
  deriving DecidableEq, Repr

structure CompletedCapture where
  sessionId : Nat
  identity : CaptureSessionIdentity
  pcm : List UInt8
  deriving DecidableEq, Repr

structure CaptureAssembler where
  active : Std.ExtTreeMap Nat ActiveCapture
  retired : List Nat
  ready : List (Except LanVoiceError CompletedCapture)
  authKey : Option (List UInt8)

/-- Silence up to `sequence`. -/
def ActiveCapture.fillGap (capture : ActiveCapture) (sequence : Nat) : ActiveCapture :=
  let missing := sequence - capture.nextSequence
  if 0 < missing then
    { capture with
      pcm := capture.pcm ++ List.replicate (missing * audioFrameBytes) 0
      nextSequence := sequence }
  else capture

namespace CaptureAssembler

def new (authKey : Option (List UInt8)) : CaptureAssembler where
  active := ∅
  retired := []
  ready := []
  authKey := authKey

def retire (a : CaptureAssembler) (sessionId : Nat) : CaptureAssembler :=
  if sessionId ∈ a.retired then a
  else
    let retired := a.retired ++ [sessionId]
    { a with retired := retired.drop (retired.length - maxRetiredSessions) }

/-- The capture is given up: `active.remove`, then `retire`. -/
def abandon (a : CaptureAssembler) (sessionId : Nat) : CaptureAssembler :=
  retire { a with active := a.active.erase sessionId } sessionId

/-- A change to an active capture, in place. -/
def put (a : CaptureAssembler) (capture : ActiveCapture) : CaptureAssembler :=
  { a with active := a.active.insert capture.sessionId capture }

def complete (a : CaptureAssembler) (sessionId : Nat) : CaptureAssembler :=
  match a.active[sessionId]? with
  | none => a
  | some capture =>
    let a := a.abandon sessionId
    { a with
      ready := a.ready ++ [
        if capture.nextSequence < minCaptureFrames then .error .captureTooShort
        else .ok ⟨capture.sessionId, capture.identity, capture.pcm⟩] }

/-- The rest of `ingest`, once the session of the frame is active. -/
def acceptFrame (a : CaptureAssembler) (capture : ActiveCapture) (frame : ParsedFrame)
    (source : SocketAddr) (now : Nat) : Except LanVoiceError Unit × CaptureAssembler :=
  if capture.source ≠ source ∨ capture.identity ≠ frame.identity ∨
      capture.finalSequence.any (fun finalSequence => decide (finalSequence ≤ frame.sequence)) then
    (.error .invalidSequence, a.abandon frame.sessionId)
  else if frame.sequence < capture.nextSequence then
    (.ok (), a.put { capture with lastFrameAt := now })
  else
    let missing := frame.sequence - capture.nextSequence
    if maxCaptureGapFrames < missing then (.error .invalidSequence, a.abandon frame.sessionId)
    else if maxCaptureBytes <
        capture.pcm.length + (missing * audioFrameBytes + frame.payload.length) then
      (.error .captureLimit, a.abandon frame.sessionId)
    else
      let capture := capture.fillGap frame.sequence
      let capture := { capture with
        pcm := capture.pcm ++ frame.payload
        nextSequence := min (capture.nextSequence + 1) (2 ^ 32 - 1)
        lastFrameAt := now }
      let a := a.put capture
      (.ok (), if capture.finalSequence = some capture.nextSequence then a.complete frame.sessionId
        else a)

def openCapture (frame : ParsedFrame) (source : SocketAddr) (now : Nat) : ActiveCapture where
  sessionId := frame.sessionId
  identity := frame.identity
  source := source
  nextSequence := 0
  pcm := []
  lastFrameAt := now
  finalSequence := none

/-- `ingest` of an authenticated frame. -/
def ingestFrame (a : CaptureAssembler) (frame : ParsedFrame) (source : SocketAddr) (now : Nat) :
    Except LanVoiceError Unit × CaptureAssembler :=
  if frame.sessionId ∈ a.retired then (.ok (), a)
  else
    match a.active[frame.sessionId]? with
    | some capture => a.acceptFrame capture frame source now
    | none =>
      if maxCaptureGapFrames < frame.sequence then
        (.error .invalidSequence, a.retire frame.sessionId)
      else if maxActiveCaptures ≤ a.active.size then
        (.error .captureLimit, a.retire frame.sessionId)
      else
        let capture := openCapture frame source now
        (a.put capture).acceptFrame capture frame source now

/-- `ingest_end` of an authenticated end. -/
def ingestEnd (a : CaptureAssembler) (terminal : ParsedEnd) (source : SocketAddr) (now : Nat) :
    Except LanVoiceError Unit × CaptureAssembler :=
  if terminal.sessionId ∈ a.retired then (.ok (), a)
  else
    match a.active[terminal.sessionId]? with
    | none => (.error .invalidSession, a)
    | some capture =>
      if capture.source ≠ source ∨ capture.identity ≠ terminal.identity ∨
          terminal.finalSequence < capture.nextSequence ∨
          maxCaptureBytes < terminal.finalSequence * audioFrameBytes then
        (.error .invalidSequence, a.abandon terminal.sessionId)
      else
        match capture.finalSequence with
        | some existing =>
          if existing = terminal.finalSequence then
            (.ok (), a.put { capture with lastFrameAt := now })
          else (.error .invalidSequence, a.abandon terminal.sessionId)
        | none =>
          if maxCaptureGapFrames < terminal.finalSequence - capture.nextSequence then
            (.error .invalidSequence, a.abandon terminal.sessionId)
          else
            let capture := { capture.fillGap terminal.finalSequence with
              finalSequence := some terminal.finalSequence
              lastFrameAt := now }
            let a := a.put capture
            (.ok (), if capture.nextSequence = terminal.finalSequence then
              a.complete terminal.sessionId else a)

def ingest (c : Crypto) (a : CaptureAssembler) (datagram : List UInt8) (source : SocketAddr)
    (now : Nat) : Except LanVoiceError Unit × CaptureAssembler :=
  if 4 ≤ datagram.length ∧ datagram.take 4 = magicEiae then
    match parseAudioEnd c datagram a.authKey with
    | .error error => (.error error, a)
    | .ok terminal => a.ingestEnd terminal source now
  else
    match parseAudioFrame c datagram a.authKey with
    | .error error =>
      (if error = .invalidPacket ∧ 4 ≤ datagram.length ∧ datagram.take 4 = magicEihb then .ok ()
        else .error error, a)
    | .ok frame => a.ingestFrame frame source now

def takeReady (a : CaptureAssembler) :
    List (Except LanVoiceError CompletedCapture) × CaptureAssembler :=
  (a.ready, { a with ready := [] })

/-- The sessions without a frame for too long, in the order of the map. -/
def idle (a : CaptureAssembler) (now : Nat) : List Nat :=
  a.active.toList.filterMap fun (session, capture) =>
    if captureAbortTimeout ≤ now - capture.lastFrameAt then some session else none

/-- One round of the loop of `expire_incomplete`. -/
def expireSession (acc : List LanVoiceError × CaptureAssembler) (session : Nat) :
    List LanVoiceError × CaptureAssembler :=
  match acc.2.active[session]? with
  | none => acc
  | some _ => (acc.1 ++ [.invalidSequence], acc.2.abandon session)

def expireIncomplete (a : CaptureAssembler) (now : Nat) : List LanVoiceError × CaptureAssembler :=
  (a.idle now).foldl expireSession ([], a)

end CaptureAssembler

end CodexKeyboard.Lan
