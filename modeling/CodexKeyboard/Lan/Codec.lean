import CodexKeyboard.Lan.Sender
import CodexKeyboard.Schemes.Bytes

/-! The Host's codec of the playback datagrams, byte by byte.

    HMAC-SHA256 and AES-256-GCM are what both sides take from their libraries; `Crypto` is what the
    codecs rely on. -/

namespace CodexKeyboard.Lan

open Schemes.Chunks Schemes.Bytes

structure Crypto where
  hmac : (key message : List UInt8) → List UInt8
  /-- Ciphertext and tag under a key, a nonce and the header it is bound to. -/
  encrypt : (key nonce header plaintext : List UInt8) → List UInt8 × List UInt8
  decrypt : (key nonce header ciphertext tag : List UInt8) → Option (List UInt8)
  hmac_length : ∀ key message, (hmac key message).length = 32
  ciphertext_length : ∀ key nonce header plaintext,
    (encrypt key nonce header plaintext).1.length = plaintext.length
  tag_length : ∀ key nonce header plaintext, (encrypt key nonce header plaintext).2.length = 16
  decrypt_iff : ∀ key nonce header ciphertext tag plaintext,
    decrypt key nonce header ciphertext tag = some plaintext ↔
      encrypt key nonce header plaintext = (ciphertext, tag)

/-- Constant tags and no encryption satisfy it. -/
instance : Inhabited Crypto where
  default := {
    hmac := fun _ _ => List.replicate 32 0
    encrypt := fun _ _ _ plaintext => (plaintext, List.replicate 16 0)
    decrypt := fun _ _ _ ciphertext tag => if tag = List.replicate 16 0 then some ciphertext else none
    hmac_length := by simp
    ciphertext_length := by simp
    tag_length := by simp
    decrypt_iff := by
      intro _ _ _ ciphertext tag plaintext
      simp only [Option.ite_none_right_eq_some, Option.some.injEq, Prod.mk.injEq]
      tauto }

inductive PlaybackWireError where
  | malformed | authentication
  deriving DecidableEq, Repr

def playbackVersion : Nat := 1
def playbackTagBytes : Nat := 16
def mailboxStatusVersion : Nat := 3
def requestBytes : Nat := 40
def beginBytes : Nat := 72
def ackBytes : Nat := 52
def finishedBytes : Nat := 56
def finishedAckBytes : Nat := 48
def dataHeaderBytes : Nat := 40
def mailboxStatusBytes : Nat := 32

def magicEipr : List UInt8 := [0x45, 0x49, 0x50, 0x52]
def magicEipb : List UInt8 := [0x45, 0x49, 0x50, 0x42]
def magicEipd : List UInt8 := [0x45, 0x49, 0x50, 0x44]
def magicEipa : List UInt8 := [0x45, 0x49, 0x50, 0x41]
def magicEipf : List UInt8 := [0x45, 0x49, 0x50, 0x46]
def magicEipk : List UInt8 := [0x45, 0x49, 0x50, 0x4B]
def magicEimb : List UInt8 := [0x45, 0x49, 0x4D, 0x42]

/-! ### Fields -/

def putUint (width : Nat) (packet : List UInt8) (offset value : Nat) : List UInt8 :=
  splice packet offset (leBytes width value)

def getUint (width : Nat) (packet : List UInt8) (offset : Nat) : Nat := leNat (slice packet offset width)

def putU8 := putUint 1
def putU16 := putUint 2
def putU32 := putUint 4
def putU64 := putUint 8

def getU8 := getUint 1
def getU16 := getUint 2
def getU32 := getUint 4
def getU64 := getUint 8

def encodeIdentity (packet : List UInt8) (identity : PlaybackIdentity) : List UInt8 :=
  let packet := putU32 packet 8 identity.requestGeneration
  let packet := putU32 packet 12 identity.connectionGeneration
  let packet := putU64 packet 16 identity.summaryGeneration
  putU64 packet 24 identity.lease

def decodeIdentity (packet : List UInt8) : PlaybackIdentity where
  slot := getU8 packet 5
  requestGeneration := getU32 packet 8
  connectionGeneration := getU32 packet 12
  summaryGeneration := getU64 packet 16
  lease := getU64 packet 24

/-! ### Authentication -/

/-- `sign`: the tag over everything before it. -/
def sign (c : Crypto) (key packet : List UInt8) : List UInt8 :=
  let split := packet.length - playbackTagBytes
  splice packet split ((c.hmac key (packet.take split)).take playbackTagBytes)

def verify (c : Crypto) (key packet : List UInt8) : Except PlaybackWireError Unit :=
  if packet.length < playbackTagBytes then .error .malformed
  else
    let split := packet.length - playbackTagBytes
    if (c.hmac key (packet.take split)).take playbackTagBytes = packet.drop split then .ok ()
    else .error .authentication

def verifyFixed (c : Crypto) (packet : List UInt8) (length : Nat) (magic key : List UInt8) :
    Except PlaybackWireError Unit :=
  if packet.length ≠ length ∨ packet.take 4 ≠ magic ∨ getU8 packet 4 ≠ playbackVersion then
    .error .malformed
  else verify c key packet

/-! ### The datagrams -/

def encodeRequest (c : Crypto) (request : PlaybackRequest) (key : List UInt8) : List UInt8 :=
  let packet := List.replicate requestBytes 0
  let packet := splice packet 0 magicEipr
  let packet := putU8 packet 4 playbackVersion
  let packet := putU8 packet 5 request.slot
  let packet := putU32 packet 8 request.requestGeneration
  let packet := putU32 packet 12 request.connectionGeneration
  let packet := putU64 packet 16 request.nonce
  sign c key packet

def decodeRequest (c : Crypto) (packet key : List UInt8) : Except PlaybackWireError PlaybackRequest := do
  verifyFixed c packet requestBytes magicEipr key
  let request : PlaybackRequest := {
    slot := getU8 packet 5
    requestGeneration := getU32 packet 8
    connectionGeneration := getU32 packet 12
    nonce := getU64 packet 16 }
  if slice packet 6 2 ≠ [0, 0] ∨ requestOk request = false then .error .malformed
  else .ok request

def encodeBegin (c : Crypto) (start : PlaybackBegin) (key : List UInt8) : List UInt8 :=
  let packet := List.replicate beginBytes 0
  let packet := splice packet 0 magicEipb
  let packet := putU8 packet 4 playbackVersion
  let packet := putU8 packet 5 start.identity.slot
  let packet := encodeIdentity packet start.identity
  let packet := putU32 packet 32 start.totalBytes
  let packet := putU64 packet 36 start.totalSamples
  let packet := putU16 packet 44 start.chunkBytes
  let packet := putU64 packet 48 start.requestNonce
  sign c key packet

/-- The checks of `decode_begin`; it leaves the number of samples to the keyboard. -/
def hostBeginOk (start : PlaybackBegin) : Bool :=
  validIdentity start.identity && start.totalBytes != 0 &&
  decide (start.totalBytes ≤ playbackMaxEiadBytes) && start.totalSamples != 0 &&
  start.chunkBytes != 0 && decide (start.chunkBytes ≤ playbackChunkBytes) && start.requestNonce != 0

def decodeBegin (c : Crypto) (packet key : List UInt8) : Except PlaybackWireError PlaybackBegin := do
  verifyFixed c packet beginBytes magicEipb key
  let start : PlaybackBegin := {
    identity := decodeIdentity packet
    totalBytes := getU32 packet 32
    totalSamples := getU64 packet 36
    chunkBytes := getU16 packet 44
    requestNonce := getU64 packet 48 }
  if slice packet 6 2 ≠ [0, 0] ∨ slice packet 46 2 ≠ [0, 0] ∨ hostBeginOk start = false then
    .error .malformed
  else .ok start

def encodeAck (c : Crypto) (ack : PlaybackAck) (key : List UInt8) : List UInt8 :=
  let packet := List.replicate ackBytes 0
  let packet := splice packet 0 magicEipa
  let packet := putU8 packet 4 playbackVersion
  let packet := putU8 packet 5 ack.identity.slot
  let packet := putU8 packet 6 ack.status
  let packet := encodeIdentity packet ack.identity
  let packet := putU32 packet 32 ack.nextOffset
  sign c key packet

def decodeAck (c : Crypto) (packet key : List UInt8) : Except PlaybackWireError PlaybackAck := do
  verifyFixed c packet ackBytes magicEipa key
  let ack : PlaybackAck := {
    identity := decodeIdentity packet
    status := getU8 packet 6
    nextOffset := getU32 packet 32 }
  if getU8 packet 7 ≠ 0 ∨ ackOk ack = false then .error .malformed
  else .ok ack

def encodeFinished (c : Crypto) (finished : PlaybackFinished) (key : List UInt8) : List UInt8 :=
  let packet := List.replicate finishedBytes 0
  let packet := splice packet 0 magicEipf
  let packet := putU8 packet 4 playbackVersion
  let packet := putU8 packet 5 finished.identity.slot
  let packet := encodeIdentity packet finished.identity
  let packet := putU64 packet 32 finished.playedSamples
  sign c key packet

def decodeFinished (c : Crypto) (packet key : List UInt8) : Except PlaybackWireError PlaybackFinished := do
  verifyFixed c packet finishedBytes magicEipf key
  let finished : PlaybackFinished := {
    identity := decodeIdentity packet
    playedSamples := getU64 packet 32 }
  if slice packet 6 2 ≠ [0, 0] ∨ finishedOk finished = false then .error .malformed
  else .ok finished

def encodeFinishedAck (c : Crypto) (identity : PlaybackIdentity) (status : Nat) (key : List UInt8) :
    List UInt8 :=
  let packet := List.replicate finishedAckBytes 0
  let packet := splice packet 0 magicEipk
  let packet := putU8 packet 4 playbackVersion
  let packet := putU8 packet 5 identity.slot
  let packet := putU8 packet 6 status
  let packet := encodeIdentity packet identity
  sign c key packet

def decodeFinishedAck (c : Crypto) (packet key : List UInt8) :
    Except PlaybackWireError (PlaybackIdentity × Nat) := do
  verifyFixed c packet finishedAckBytes magicEipk key
  let identity := decodeIdentity packet
  if getU8 packet 7 ≠ 0 ∨ finishedAckOk identity (getU8 packet 6) = false then .error .malformed
  else .ok (identity, getU8 packet 6)

/-! ### The mailbox -/

/-- `valid_mailbox_status`: a slot has a coverage exactly when it has something unread. -/
def validMailboxStatus (status : MailboxStatus) : Bool :=
  status.unreadSlots &&& 0xF0 == 0 && decide (status.runningTasks ≤ 4) &&
  (List.range status.coverageBySlot.length).all fun index =>
    (status.unreadSlots &&& 1 <<< index != 0) == (status.coverageBySlot.getD index 0 != 0)

def encodeMailboxStatus (c : Crypto) (status : MailboxStatus) (heartbeatSequence : Nat)
    (key : List UInt8) : Except PlaybackWireError (List UInt8) :=
  if validMailboxStatus status = false then .error .malformed
  else
    let packet := List.replicate mailboxStatusBytes 0
    let packet := splice packet 0 magicEimb
    let packet := putU8 packet 4 mailboxStatusVersion
    let packet := putU8 packet 5 status.unreadSlots
    let packet := putU8 packet 6 status.runningTasks
    let packet := putU32 packet 8 heartbeatSequence
    let packet := splice packet 12 (status.coverageBySlot.map UInt8.ofNat)
    .ok (sign c key packet)

def decodeMailboxStatus (c : Crypto) (packet key : List UInt8) :
    Except PlaybackWireError (MailboxStatus × Nat) :=
  if packet.length ≠ mailboxStatusBytes ∨ packet.take 4 ≠ magicEimb ∨
      getU8 packet 4 ≠ mailboxStatusVersion then .error .malformed
  else do
    verify c key packet
    let status : MailboxStatus := {
      unreadSlots := getU8 packet 5
      runningTasks := getU8 packet 6
      coverageBySlot := (slice packet 12 4).map UInt8.toNat }
    if getU8 packet 7 ≠ 0 ∨ validMailboxStatus status = false then .error .malformed
    else .ok (status, getU32 packet 8)

/-! ### Data -/

def keyLabel : List UInt8 := [0x45, 0x49, 0x50, 0x44, 0x4B, 0x45, 0x59, 0x31]

/-- The context a data key is derived from. -/
def dataKeyContext (identity : PlaybackIdentity) (requestNonce : Nat) : List UInt8 :=
  let context := List.replicate 44 0
  let context := splice context 0 keyLabel
  let context := putU8 context 8 identity.slot
  let context := putU32 context 12 identity.requestGeneration
  let context := putU32 context 16 identity.connectionGeneration
  let context := putU64 context 20 identity.summaryGeneration
  let context := putU64 context 28 identity.lease
  putU64 context 36 requestNonce

def deriveDataKey (c : Crypto) (identity : PlaybackIdentity) (requestNonce : Nat) (rootKey : List UInt8) :
    List UInt8 := c.hmac rootKey (dataKeyContext identity requestNonce)

def dataNonce (offset : Nat) : List UInt8 := putU32 (List.replicate 12 0) 0 offset

/-- The datagram before its payload is sealed. -/
def dataPlain (identity : PlaybackIdentity) (offset : Nat) (payload : List UInt8) : List UInt8 :=
  let packet := List.replicate (dataHeaderBytes + payload.length + playbackTagBytes) 0
  let packet := splice packet 0 magicEipd
  let packet := putU8 packet 4 playbackVersion
  let packet := putU8 packet 5 identity.slot
  let packet := encodeIdentity packet identity
  let packet := putU32 packet 32 offset
  let packet := putU16 packet 36 payload.length
  splice packet 40 payload

/-- `encode_data`, into bytes. -/
def encodeDataBytes (c : Crypto) (identity : PlaybackIdentity) (requestNonce offset : Nat)
    (payload key : List UInt8) : Except PlaybackWireError (List UInt8) :=
  if validIdentity identity = false ∨ requestNonce = 0 ∨ payload = [] ∨
      playbackChunkBytes < payload.length then .error .malformed
  else
    let packet := dataPlain identity offset payload
    let header := packet.take dataHeaderBytes
    let body := slice packet dataHeaderBytes payload.length
    let sealed := c.encrypt (deriveDataKey c identity requestNonce key) (dataNonce offset) header body
    let packet := splice packet dataHeaderBytes sealed.1
    .ok (splice packet (dataHeaderBytes + payload.length) sealed.2)

/-- `decode_data`. -/
def decodeDataBytes (c : Crypto) (packet : List UInt8) (requestNonce : Nat) (key : List UInt8) :
    Except PlaybackWireError (PlaybackIdentity × Nat × List UInt8) :=
  if packet.length < dataHeaderBytes + 1 + playbackTagBytes ∨ packet.take 4 ≠ magicEipd ∨
      getU8 packet 4 ≠ playbackVersion then .error .malformed
  else
    let identity := decodeIdentity packet
    let payloadLength := getU16 packet 36
    if slice packet 6 2 ≠ [0, 0] ∨ slice packet 38 2 ≠ [0, 0] ∨ validIdentity identity = false ∨
        requestNonce = 0 ∨ payloadLength = 0 ∨ playbackChunkBytes < payloadLength ∨
        packet.length ≠ dataHeaderBytes + payloadLength + playbackTagBytes then .error .malformed
    else
      let offset := getU32 packet 32
      match c.decrypt (deriveDataKey c identity requestNonce key) (dataNonce offset)
          (packet.take dataHeaderBytes) (slice packet dataHeaderBytes payloadLength)
          (packet.drop (dataHeaderBytes + payloadLength)) with
      | none => .error .authentication
      | some plaintext => .ok (identity, offset, plaintext)

end CodexKeyboard.Lan
