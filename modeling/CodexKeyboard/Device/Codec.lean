import CodexKeyboard.Lan.Codec

/-! The keyboard's codec of the playback datagrams. A decoder answers nothing where the source answers
    false; a value it wrote before that is not used. -/

namespace CodexKeyboard.Device

open Lan Schemes.Bytes

/-! ### Fields -/

def wirePutU32 (output : List UInt8) (offset value : Nat) : List UInt8 := putLoop output offset 4 value
def wirePutU64 (output : List UInt8) (offset value : Nat) : List UInt8 := putLoop output offset 8 value

def wireGetU8 (input : List UInt8) (offset : Nat) : Nat := (input.getD offset 0).toNat

def wireGetU16 (input : List UInt8) (offset : Nat) : Nat :=
  wireGetU8 input offset ||| wireGetU8 input (offset + 1) <<< 8

def wireGetU32 (input : List UInt8) (offset : Nat) : Nat := getLoop input offset 4
def wireGetU64 (input : List UInt8) (offset : Nat) : Nat := getLoop input offset 8

def magicMatches (packet magic : List UInt8) : Bool := packet.take 4 == magic

def wireEncodeIdentity (packet : List UInt8) (identity : PlaybackIdentity) : List UInt8 :=
  let packet := wirePutU32 packet 8 identity.requestGeneration
  let packet := wirePutU32 packet 12 identity.connectionGeneration
  let packet := wirePutU64 packet 16 identity.summaryGeneration
  wirePutU64 packet 24 identity.lease

def wireDecodeIdentity (packet : List UInt8) : PlaybackIdentity where
  slot := wireGetU8 packet 5
  requestGeneration := wireGetU32 packet 8
  connectionGeneration := wireGetU32 packet 12
  summaryGeneration := wireGetU64 packet 16
  lease := wireGetU64 packet 24

def reservedZero (packet : List UInt8) (first last : Nat) : Bool :=
  (List.range (last - first)).all fun index => packet.getD (first + index) 0 == 0

/-! ### Authentication -/

def wireSign (c : Crypto) (packet key : List UInt8) : Option (List UInt8) :=
  if packet.length < playbackTagBytes then none
  else
    let bodySize := packet.length - playbackTagBytes
    let digest := c.hmac key (packet.take bodySize)
    some (packet.take bodySize ++ digest.take playbackTagBytes)

/-- `difference |= digest[index] ^ packet[body_size + index]` over the tag. -/
def tagDifference (digest packet : List UInt8) (bodySize : Nat) : UInt8 :=
  (List.range playbackTagBytes).foldl
    (fun difference index =>
      difference ||| (digest.getD index 0 ^^^ packet.getD (bodySize + index) 0)) 0

def authenticate (c : Crypto) (packet key : List UInt8) : Bool :=
  if packet.length < playbackTagBytes then false
  else
    let bodySize := packet.length - playbackTagBytes
    tagDifference (c.hmac key (packet.take bodySize)) packet bodySize == 0

/-! ### The datagrams -/

def playbackWireIdentityValid (identity : PlaybackIdentity) : Bool :=
  decide (1 ≤ identity.slot) && decide (identity.slot ≤ 4) && identity.requestGeneration != 0 &&
  identity.connectionGeneration != 0 && identity.summaryGeneration != 0 && identity.lease != 0

def encodePlaybackRequest (c : Crypto) (request : PlaybackRequest) (key : List UInt8) :
    Option (List UInt8) :=
  if decide (request.slot < 1) || decide (4 < request.slot) || request.requestGeneration == 0 ||
      request.connectionGeneration == 0 || request.nonce == 0 then none
  else
    let output := List.replicate requestBytes 0
    let output := Schemes.Chunks.splice output 0 magicEipr
    let output := output.set 4 (UInt8.ofNat playbackVersion)
    let output := output.set 5 (UInt8.ofNat request.slot)
    let output := wirePutU32 output 8 request.requestGeneration
    let output := wirePutU32 output 12 request.connectionGeneration
    let output := wirePutU64 output 16 request.nonce
    wireSign c output key

def decodePlaybackRequest (c : Crypto) (packet key : List UInt8) : Option PlaybackRequest :=
  if packet.length ≠ requestBytes || !magicMatches packet magicEipr ||
      wireGetU8 packet 4 != playbackVersion || !authenticate c packet key ||
      !reservedZero packet 6 8 then none
  else
    let request : PlaybackRequest := {
      slot := wireGetU8 packet 5
      requestGeneration := wireGetU32 packet 8
      connectionGeneration := wireGetU32 packet 12
      nonce := wireGetU64 packet 16 }
    if decide (1 ≤ request.slot) && decide (request.slot ≤ 4) && request.requestGeneration != 0 &&
        request.connectionGeneration != 0 && request.nonce != 0 then some request
    else none

def decodePlaybackBegin (c : Crypto) (packet key : List UInt8) : Option PlaybackBegin :=
  if packet.length ≠ beginBytes || !magicMatches packet magicEipb ||
      wireGetU8 packet 4 != playbackVersion || !authenticate c packet key ||
      !reservedZero packet 6 8 || !reservedZero packet 46 48 then none
  else
    let start : PlaybackBegin := {
      identity := wireDecodeIdentity packet
      totalBytes := wireGetU32 packet 32
      totalSamples := wireGetU64 packet 36
      chunkBytes := wireGetU16 packet 44
      requestNonce := wireGetU64 packet 48 }
    if playbackWireIdentityValid start.identity && start.totalBytes != 0 &&
        decide (start.totalBytes ≤ playbackMaxEiadBytes) && start.totalSamples != 0 &&
        decide (start.totalSamples ≤ playbackMaximumSamples) && start.chunkBytes != 0 &&
        decide (start.chunkBytes ≤ playbackChunkBytes) && start.requestNonce != 0 then some start
    else none

def encodePlaybackAck (c : Crypto) (ack : PlaybackAck) (key : List UInt8) : Option (List UInt8) :=
  if !playbackWireIdentityValid ack.identity || decide (3 < ack.status) then none
  else
    let output := List.replicate ackBytes 0
    let output := Schemes.Chunks.splice output 0 magicEipa
    let output := output.set 4 (UInt8.ofNat playbackVersion)
    let output := output.set 5 (UInt8.ofNat ack.identity.slot)
    let output := output.set 6 (UInt8.ofNat ack.status)
    let output := wireEncodeIdentity output ack.identity
    let output := wirePutU32 output 32 ack.nextOffset
    wireSign c output key

def encodePlaybackFinished (c : Crypto) (finished : PlaybackFinished) (key : List UInt8) :
    Option (List UInt8) :=
  if !playbackWireIdentityValid finished.identity || finished.playedSamples == 0 then none
  else
    let output := List.replicate finishedBytes 0
    let output := Schemes.Chunks.splice output 0 magicEipf
    let output := output.set 4 (UInt8.ofNat playbackVersion)
    let output := output.set 5 (UInt8.ofNat finished.identity.slot)
    let output := wireEncodeIdentity output finished.identity
    let output := wirePutU64 output 32 finished.playedSamples
    wireSign c output key

def decodePlaybackFinishedAck (c : Crypto) (packet key : List UInt8) :
    Option (PlaybackIdentity × Nat) :=
  if packet.length ≠ finishedAckBytes || !magicMatches packet magicEipk ||
      wireGetU8 packet 4 != playbackVersion || !authenticate c packet key ||
      wireGetU8 packet 7 != 0 then none
  else
    let identity := wireDecodeIdentity packet
    let status := wireGetU8 packet 6
    if playbackWireIdentityValid identity && decide (status ≤ 1) then some (identity, status) else none

/-- The bits of `unread_slots` against the coverage, slot by slot. -/
def coverageMatches (status : MailboxStatus) : Bool :=
  (List.range status.coverageBySlot.length).all fun index =>
    (status.unreadSlots &&& 1 <<< index != 0) == (status.coverageBySlot.getD index 0 != 0)

def wireDecodeMailboxStatus (c : Crypto) (packet key : List UInt8) : Option (MailboxStatus × Nat) :=
  if packet.length ≠ mailboxStatusBytes || !magicMatches packet magicEimb ||
      wireGetU8 packet 4 != mailboxStatusVersion || !authenticate c packet key ||
      wireGetU8 packet 7 != 0 then none
  else
    let status : MailboxStatus := {
      unreadSlots := wireGetU8 packet 5
      runningTasks := wireGetU8 packet 6
      coverageBySlot := (List.range 4).map fun index => wireGetU8 packet (12 + index) }
    if status.unreadSlots &&& 0xF0 != 0 || decide (4 < status.runningTasks) then none
    else if coverageMatches status then some (status, wireGetU32 packet 8)
    else none

/-! ### Data -/

def wireDeriveDataKey (c : Crypto) (identity : PlaybackIdentity) (requestNonce : Nat)
    (rootKey : List UInt8) : Option (List UInt8) :=
  if requestNonce = 0 then none
  else
    let context := List.replicate 44 0
    let context := Schemes.Chunks.splice context 0 keyLabel
    let context := context.set 8 (UInt8.ofNat identity.slot)
    let context := wirePutU32 context 12 identity.requestGeneration
    let context := wirePutU32 context 16 identity.connectionGeneration
    let context := wirePutU64 context 20 identity.summaryGeneration
    let context := wirePutU64 context 28 identity.lease
    let context := wirePutU64 context 36 requestNonce
    some (c.hmac rootKey context)

def wireDataNonce (offset : Nat) : List UInt8 := wirePutU32 (List.replicate 12 0) 0 offset

def decryptDataPayload (c : Crypto) (packet : List UInt8) (payloadLength : Nat) (dataKey : List UInt8) :
    Option (List UInt8) :=
  c.decrypt dataKey (wireDataNonce (wireGetU32 packet 32)) (packet.take dataHeaderBytes)
    (slice packet dataHeaderBytes payloadLength)
    (slice packet (dataHeaderBytes + payloadLength) playbackTagBytes)

def decodePlaybackData (c : Crypto) (packet : List UInt8) (requestNonce : Nat) (key : List UInt8)
    (plaintextSize : Nat) : Option (PlaybackIdentity × Nat × List UInt8) :=
  if requestNonce = 0 || decide (packet.length < dataHeaderBytes + 1 + playbackTagBytes) ||
      !magicMatches packet magicEipd || wireGetU8 packet 4 != playbackVersion ||
      !reservedZero packet 6 8 || !reservedZero packet 38 40 then none
  else
    let payloadLength := wireGetU16 packet 36
    let identity := wireDecodeIdentity packet
    if !playbackWireIdentityValid identity || payloadLength == 0 || decide (playbackChunkBytes < payloadLength) ||
        decide (plaintextSize < payloadLength) ||
        packet.length != dataHeaderBytes + payloadLength + playbackTagBytes then none
    else
      match wireDeriveDataKey c identity requestNonce key with
      | none => none
      | some dataKey =>
        (decryptDataPayload c packet payloadLength dataKey).map fun plaintext =>
          (identity, wireGetU32 packet 32, plaintext)

end CodexKeyboard.Device
