import CodexKeyboard.Schemes.Bytes

/-! Routes, logical frames and their two physical encodings, from `speaker_assets_protocol.cpp`.

    A frame's body is the list of its `body_length` bytes. The checksum is a parameter. -/

namespace CodexKeyboard.SoundSync

open Schemes.Bytes

inductive SpeakerAssetsTransport
  | usb
  | reservedLegacy
  | wifi
deriving DecidableEq

/-- `static_cast` of the enumeration. -/
def SpeakerAssetsTransport.code : SpeakerAssetsTransport → UInt32
  | .usb => 1
  | .reservedLegacy => 2
  | .wifi => 3

/-- One exact lifetime of a USB endpoint (`routeId` 0, `generation` its epoch) or of a connection. -/
structure SpeakerAssetsRouteToken where
  transport : SpeakerAssetsTransport := .usb
  routeId : UInt32 := 0
  generation : UInt32 := 0
deriving DecidableEq

namespace SpeakerAssetsRouteToken

/-- `route_shape_is_valid` of the runtime, `route_is_valid` of the session and of the protocol. -/
def shapeIsValid (route : SpeakerAssetsRouteToken) : Bool :=
  route.generation != 0 &&
    (route.transport == .wifi || (route.transport == .usb && route.routeId == 0))

/-- `route_valid` of the Wi-Fi carrier. -/
def wifiValid (route : SpeakerAssetsRouteToken) : Prop :=
  route.transport = .wifi ∧ route.routeId ≠ 0 ∧ route.generation ≠ 0

instance (route : SpeakerAssetsRouteToken) : Decidable route.wifiValid :=
  inferInstanceAs (Decidable (_ ∧ _ ∧ _))

end SpeakerAssetsRouteToken

def speakerAssetsProtocolVersion : UInt8 := 1
def speakerAssetsFrameHeaderBytes : ℕ := 24
def speakerAssetsUsbFrameBytes : ℕ := 63
def speakerAssetsUsbFrameBodyBytes : ℕ := speakerAssetsUsbFrameBytes - speakerAssetsFrameHeaderBytes
def speakerAssetsWifiFrameMaxBytes : ℕ := 125
def speakerAssetsWifiFrameBodyBytes : ℕ :=
  speakerAssetsWifiFrameMaxBytes - speakerAssetsFrameHeaderBytes
def speakerAssetsPlanWireBytes : ℕ := 640

/-- The capabilities USB, resume, progress, recovery, current active and Wi-Fi. -/
def speakerAssetsCapabilities : UInt8 := 0x01 ||| 0x04 ||| 0x08 ||| 0x10 ||| 0x20 ||| 0x40

def flagResponse : UInt8 := 0x01
def flagError : UInt8 := 0x02
def flagAckRequested : UInt8 := 0x04
def flagFirstFragment : UInt8 := 0x08
def flagLastFragment : UInt8 := 0x10
def flagPayloadRegion : UInt8 := 0x20
def knownFlags : UInt8 :=
  flagResponse ||| flagError ||| flagAckRequested ||| flagFirstFragment ||| flagLastFragment |||
    flagPayloadRegion

/-- The flag is set. -/
def hasFlag (flags flag : UInt8) : Bool := flags &&& flag != 0

/-- No flag but the allowed ones is set. -/
def onlyFlags (flags allowed : UInt8) : Bool := flags &&& ~~~allowed == 0

inductive SpeakerAssetsOpcode
  | capabilities
  | begin
  | resume
  | data
  | query
  | commit
  | abort
  | recoverInvalidStaging
  | currentActive
deriving DecidableEq

/-- The opcodes are numbered from 1 on. -/
def SpeakerAssetsOpcode.ofCode : UInt8 → Option SpeakerAssetsOpcode
  | 0x01 => some .capabilities
  | 0x02 => some .begin
  | 0x03 => some .resume
  | 0x04 => some .data
  | 0x05 => some .query
  | 0x06 => some .commit
  | 0x07 => some .abort
  | 0x08 => some .recoverInvalidStaging
  | 0x09 => some .currentActive
  | _ => none

inductive SpeakerAssetsRegion
  | manifest
  | payload
deriving DecidableEq

def SpeakerAssetsRegion.code : SpeakerAssetsRegion → UInt8
  | .manifest => 0
  | .payload => 1

inductive SpeakerAssetsProtocolResult
  | ok
  | invalidArgument
  | invalidLength
  | invalidMagic
  | unsupportedVersion
  | invalidFlags
  | invalidRequestId
  | invalidBodyLength
  | nonZeroPadding
  | crcMismatch
  | invalidPlan
  | incomplete
  | conflict
  | outOfBounds
  | wrongUnit
  | wrongOwner
deriving DecidableEq

inductive SpeakerAssetsStatus
  | ok
  | badRequest
  | unsupportedVersion
  | integrityError
  | busy
  | notReady
  | staleBase
  | transactionMismatch
  | incomplete
  | storageUnavailable
  | bankPinned
  | generationExhausted
  | splitBrain
  | pausedForInput
  | internalError
  | recoveryRequired
deriving DecidableEq

def SpeakerAssetsStatus.code : SpeakerAssetsStatus → UInt8
  | .ok => 0
  | .badRequest => 1
  | .unsupportedVersion => 2
  | .integrityError => 3
  | .busy => 4
  | .notReady => 5
  | .staleBase => 6
  | .transactionMismatch => 7
  | .incomplete => 8
  | .storageUnavailable => 9
  | .bankPinned => 10
  | .generationExhausted => 11
  | .splitBrain => 12
  | .pausedForInput => 13
  | .internalError => 14
  | .recoveryRequired => 15

structure SpeakerAssetsFrame where
  opcode : UInt8 := 0
  flags : UInt8 := 0
  requestId : UInt32 := 0
  sessionCookie : UInt32 := 0
  objectOffset : UInt32 := 0
  body : List UInt8 := []
deriving DecidableEq

/-! ### Physical encodings -/

/-- An error is a response, and a response asks for no acknowledgement. -/
def flagsAreValid (flags : UInt8) : Bool :=
  onlyFlags flags knownFlags && !(hasFlag flags flagError && !hasFlag flags flagResponse) &&
    !(hasFlag flags flagResponse && hasFlag flags flagAckRequested)

def validateFrameForEncoding (frame : SpeakerAssetsFrame) (maximumBodyBytes : ℕ) :
    SpeakerAssetsProtocolResult :=
  if frame.requestId = 0 then .invalidRequestId
  else if maximumBodyBytes < frame.body.length then .invalidBodyLength
  else if flagsAreValid frame.flags then .ok
  else .invalidFlags

variable (crc32 : List UInt8 → UInt32)

/-- `EIA`, the version, the fields and the given checksum. -/
def frameHeader (frame : SpeakerAssetsFrame) (crc : UInt32) : List UInt8 :=
  [0x45, 0x49, 0x41, speakerAssetsProtocolVersion, frame.opcode, frame.flags] ++
    leBytes 2 frame.body.length ++ leBytes 4 frame.requestId.toNat ++
    leBytes 4 frame.sessionCookie.toNat ++ leBytes 4 frame.objectOffset.toNat ++ leBytes 4 crc.toNat

/-- The checksum is taken with its own field zero. -/
def frameBytes (frame : SpeakerAssetsFrame) : List UInt8 :=
  frameHeader frame (crc32 (frameHeader frame 0 ++ frame.body)) ++ frame.body

def encodeSpeakerAssetsUsbFrame (frame : SpeakerAssetsFrame) :
    SpeakerAssetsProtocolResult × List UInt8 :=
  match validateFrameForEncoding frame speakerAssetsUsbFrameBodyBytes with
  | .ok => (.ok, frameBytes crc32 frame ++
      List.replicate (speakerAssetsUsbFrameBodyBytes - frame.body.length) 0)
  | result => (result, [])

def encodeSpeakerAssetsWifiFrame (frame : SpeakerAssetsFrame) :
    SpeakerAssetsProtocolResult × List UInt8 :=
  match validateFrameForEncoding frame speakerAssetsWifiFrameBodyBytes with
  | .ok => (.ok, frameBytes crc32 frame)
  | result => (result, [])

/-- The integer of `width` bytes at an offset. -/
def readLe (encoded : List UInt8) (offset width : ℕ) : ℕ := leNat (slice encoded offset width)

def decodeFramePrefix (encoded : List UInt8) (maximumBodyBytes : ℕ) (fixedSizeWithPadding : Bool) :
    SpeakerAssetsProtocolResult × SpeakerAssetsFrame :=
  let flags := encoded.getD 5 0
  let bodyLength := readLe encoded 6 2
  let exactLength := speakerAssetsFrameHeaderBytes + bodyLength
  let decoded : SpeakerAssetsFrame :=
    { opcode := encoded.getD 4 0
      flags := flags
      requestId := UInt32.ofNat (readLe encoded 8 4)
      sessionCookie := UInt32.ofNat (readLe encoded 12 4)
      objectOffset := UInt32.ofNat (readLe encoded 16 4)
      body := slice encoded speakerAssetsFrameHeaderBytes bodyLength }
  if encoded.length < speakerAssetsFrameHeaderBytes then (.invalidLength, {})
  else if encoded.take 3 ≠ [0x45, 0x49, 0x41] then (.invalidMagic, {})
  else if encoded.getD 3 0 ≠ speakerAssetsProtocolVersion then (.unsupportedVersion, {})
  else if !flagsAreValid flags then (.invalidFlags, {})
  else if maximumBodyBytes < bodyLength then (.invalidBodyLength, {})
  else if (!fixedSizeWithPadding && encoded.length != exactLength) ||
      (fixedSizeWithPadding && encoded.length < exactLength) then (.invalidLength, {})
  else if fixedSizeWithPadding && (encoded.drop exactLength).any (· != 0) then (.nonZeroPadding, {})
  else if decoded.requestId = 0 then (.invalidRequestId, {})
  else if (crc32 (encoded.take 20 ++ [0, 0, 0, 0] ++ slice encoded 24 bodyLength)).toNat ≠
      readLe encoded 20 4 then (.crcMismatch, {})
  else (.ok, decoded)

def decodeSpeakerAssetsUsbFrame (encoded : List UInt8) :
    SpeakerAssetsProtocolResult × SpeakerAssetsFrame :=
  if encoded.length ≠ speakerAssetsUsbFrameBytes then (.invalidLength, {})
  else decodeFramePrefix crc32 encoded speakerAssetsUsbFrameBodyBytes true

def decodeSpeakerAssetsWifiFrame (encoded : List UInt8) :
    SpeakerAssetsProtocolResult × SpeakerAssetsFrame :=
  if speakerAssetsWifiFrameMaxBytes < encoded.length then (.invalidLength, {})
  else decodeFramePrefix crc32 encoded speakerAssetsWifiFrameBodyBytes false

/-- A decoded frame has a request id, known flags and a body within the transport's bound. -/
theorem decodeFramePrefix_ok {encoded : List UInt8} {maximumBodyBytes : ℕ} {padded : Bool}
    (h : (decodeFramePrefix crc32 encoded maximumBodyBytes padded).1 = .ok) :
    let frame := (decodeFramePrefix crc32 encoded maximumBodyBytes padded).2
    frame.requestId ≠ 0 ∧ flagsAreValid frame.flags = true ∧ frame.body.length ≤ maximumBodyBytes := by
  unfold decodeFramePrefix at h ⊢
  dsimp only at h ⊢
  split_ifs at h ⊢ with h1 h2 h3 h4 h5 h6 h7 h8 h9
  refine ⟨h8, by simpa using h4, ?_⟩
  dsimp only [slice]
  rw [List.length_take]
  omega

end CodexKeyboard.SoundSync
