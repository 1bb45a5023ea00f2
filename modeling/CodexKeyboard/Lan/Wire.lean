import Mathlib.Tactic

/-! The datagrams of LAN playback, past their authentication.

    Both sides drop what does not authenticate before they look at it, so a packet here is what a
    peer put into it; what the decoders check beyond the tag is kept. -/

namespace CodexKeyboard.Lan

def playbackChunkBytes : Nat := 1024
def playbackMaxEiadBytes : Nat := 4 * 1024 * 1024
def playbackMaximumSamples : Nat := 48000 * 150

structure SocketAddr where
  ip : Nat
  port : Nat
  deriving DecidableEq, Repr

structure PlaybackRequest where
  slot : Nat
  requestGeneration : Nat
  connectionGeneration : Nat
  nonce : Nat
  deriving DecidableEq, Repr

structure PlaybackIdentity where
  slot : Nat
  requestGeneration : Nat
  connectionGeneration : Nat
  summaryGeneration : Nat
  lease : Nat
  deriving DecidableEq, Repr

structure PlaybackBegin where
  identity : PlaybackIdentity
  totalBytes : Nat
  totalSamples : Nat
  chunkBytes : Nat
  requestNonce : Nat
  deriving DecidableEq, Repr

structure PlaybackAck where
  identity : PlaybackIdentity
  status : Nat
  nextOffset : Nat
  deriving DecidableEq, Repr

structure PlaybackFinished where
  identity : PlaybackIdentity
  playedSamples : Nat
  deriving DecidableEq, Repr

/-- One EIPD: the key it is sealed under is derived from the identity and the request's nonce. -/
structure PlaybackData where
  identity : PlaybackIdentity
  requestNonce : Nat
  offset : Nat
  payload : List UInt8
  deriving DecidableEq, Repr

inductive Packet where
  | eipr (request : PlaybackRequest)
  | eipb (start : PlaybackBegin)
  | eipd (data : PlaybackData)
  | eipa (ack : PlaybackAck)
  | eipf (finished : PlaybackFinished)
  | eipk (identity : PlaybackIdentity) (status : Nat)
  deriving DecidableEq, Repr

def validIdentity (identity : PlaybackIdentity) : Bool :=
  decide (1 ≤ identity.slot) && decide (identity.slot ≤ 4) && identity.requestGeneration != 0 &&
  identity.connectionGeneration != 0 && identity.summaryGeneration != 0 && identity.lease != 0

/-- The checks of `decode_request`. -/
def requestOk (request : PlaybackRequest) : Bool :=
  decide (1 ≤ request.slot) && decide (request.slot ≤ 4) && request.requestGeneration != 0 &&
  request.connectionGeneration != 0 && request.nonce != 0

/-- The checks of the keyboard's `decode_playback_begin`. -/
def beginOk (start : PlaybackBegin) : Bool :=
  validIdentity start.identity && start.totalBytes != 0 &&
  decide (start.totalBytes ≤ playbackMaxEiadBytes) && start.totalSamples != 0 &&
  decide (start.totalSamples ≤ playbackMaximumSamples) && start.chunkBytes != 0 &&
  decide (start.chunkBytes ≤ playbackChunkBytes) && start.requestNonce != 0

/-- `encode_data`; nothing for an identity, a nonce or a payload that is not valid. -/
def encodeData (identity : PlaybackIdentity) (requestNonce offset : Nat) (payload : List UInt8) :
    Option Packet :=
  if !validIdentity identity || requestNonce == 0 || payload.isEmpty ||
      decide (playbackChunkBytes < payload.length) then none
  else some (.eipd ⟨identity, requestNonce, offset, payload⟩)

/-- `decode_playback_data` under the nonce of the request the keyboard made. -/
def decodeData (requestNonce : Nat) (data : PlaybackData) : Bool :=
  requestNonce != 0 && data.requestNonce == requestNonce && validIdentity data.identity &&
  !data.payload.isEmpty && decide (data.payload.length ≤ playbackChunkBytes)

/-- The checks of `decode_ack`. -/
def ackOk (ack : PlaybackAck) : Bool := validIdentity ack.identity && decide (ack.status ≤ 3)

/-- The checks of `decode_finished`. -/
def finishedOk (finished : PlaybackFinished) : Bool :=
  validIdentity finished.identity && finished.playedSamples != 0

/-- The checks of `decode_finished_ack`. -/
def finishedAckOk (identity : PlaybackIdentity) (status : Nat) : Bool :=
  validIdentity identity && decide (status ≤ 1)

theorem encodeData_some {identity : PlaybackIdentity} {requestNonce offset : Nat}
    {payload : List UInt8} {packet : Packet}
    (h : encodeData identity requestNonce offset payload = some packet) :
    packet = .eipd ⟨identity, requestNonce, offset, payload⟩ ∧ validIdentity identity = true := by
  unfold encodeData at h
  split at h
  · cases h
  next hok =>
    simp only [Option.some.injEq] at h
    refine ⟨h.symm, ?_⟩
    simp only [Bool.or_eq_true, not_or, Bool.not_eq_true', Bool.not_eq_true] at hok
    simpa using hok.1.1.1

end CodexKeyboard.Lan
