import CodexKeyboard.Schemes.Bytes

/-! `SoundAssetStreamDecoder`: the keyboard's speaker reads an EIAD resource frame by frame, from
    memory or through a callback that fetches it while it plays. -/

namespace CodexKeyboard.Device

open Schemes.Chunks Schemes.Bytes

def kEiadHeaderBytes : Nat := 20
def kEiadVersion : Nat := 1
def kEiadChannels : Nat := 1
def kImaStepCount : Nat := 89
def kEiadMagic : List UInt8 := [0x45, 0x49, 0x41, 0x44]
def kSoundAssetSampleRate : Nat := 48000
def kSoundAssetFrameSamples : Nat := 480
def kEmbeddedSoundAssetMaximumBytes : Nat := 4 * 1024 * 1024
def kEmbeddedSoundAssetMaximumSamples : Nat := kSoundAssetSampleRate * 150
def kSoundAssetFrameHeaderBytes : Nat := 6
def kSoundAssetMaximumFramePayloadBytes : Nat := 240
def kSoundAssetMaximumEncodedFrameBytes : Nat :=
  kSoundAssetFrameHeaderBytes + kSoundAssetMaximumFramePayloadBytes

def kStepTable : List Int := [
  7, 8, 9, 10, 11, 12, 13, 14, 16, 17, 19, 21, 23, 25, 28, 31, 34, 37, 41, 45, 50, 55, 60, 66,
  73, 80, 88, 97, 107, 118, 130, 143, 157, 173, 190, 209, 230, 253, 279, 307, 337, 371, 408, 449,
  494, 544, 598, 658, 724, 796, 876, 963, 1060, 1166, 1282, 1411, 1552, 1707, 1878, 2066, 2272,
  2499, 2749, 3024, 3327, 3660, 4026, 4428, 4871, 5358, 5894, 6484, 7132, 7845, 8630, 9493,
  10442, 11487, 12635, 13899, 15289, 16818, 18500, 20350, 22385, 24623, 27086, 29794, 32767]

def kIndexDelta : List Int := [-1, -1, -1, -1, 2, 4, 6, 8, -1, -1, -1, -1, 2, 4, 6, 8]

/-- The answers of `SoundAssetReadResult` the decoder and its sources give. -/
inductive SoundAssetReadResult where
  | ok | streamEnd | ioError | invalidResource | outputTooSmall | notReady
  deriving DecidableEq, Repr

def byteOf (data : List UInt8) (offset : Nat) : Nat := (data.getD offset 0).toNat

def readLe16 (data : List UInt8) (offset : Nat) : Nat :=
  byteOf data offset ||| (byteOf data (offset + 1) <<< 8)

def readLe32 (data : List UInt8) (offset : Nat) : Nat :=
  byteOf data offset ||| (byteOf data (offset + 1) <<< 8) ||| (byteOf data (offset + 2) <<< 16) |||
    (byteOf data (offset + 3) <<< 24)

def readSignedLe16 (data : List UInt8) (offset : Nat) : Int :=
  let raw := readLe16 data offset
  if raw &&& 0x8000 = 0 then raw else (raw : Int) - 65536

/-- `std::clamp`. -/
def stdClamp (value low high : Int) : Int :=
  if value < low then low else if high < value then high else value

/-- `decode_nibble`: the predictor, which is the sample, and the step index after the code. -/
def decodeNibble (code : Nat) (predictor stepIndex : Int) : Int × Int :=
  let step := kStepTable.getD stepIndex.toNat 0
  let difference := step >>> (3 : Nat)
  let difference := if code &&& 0x01 ≠ 0 then difference + (step >>> (2 : Nat)) else difference
  let difference := if code &&& 0x02 ≠ 0 then difference + (step >>> (1 : Nat)) else difference
  let difference := if code &&& 0x04 ≠ 0 then difference + step else difference
  (stdClamp (predictor + if code &&& 0x08 ≠ 0 then -difference else difference) (-32768) 32767,
    stdClamp (stepIndex + kIndexDelta.getD code 0) 0 88)

/-- `SoundAssetStreamingRead` with its context: the answer and the bytes at an offset. -/
abbrev SoundAssetStreamingRead := (offset length : Nat) → SoundAssetReadResult × List UInt8

inductive StreamSource where
  | embedded (encoded : List UInt8)
  | streaming (read : SoundAssetStreamingRead)

/-- The decoder over an embedded or streamed resource. -/
structure SoundAssetStreamDecoder where
  source : Option StreamSource := none
  encodedBytes : Nat := 0
  totalSamples : Nat := 0
  frameCount : Nat := 0
  nextEncodedOffset : Nat := 0
  decodedSamples : Nat := 0
  nextFrameIndex : Nat := 0
  ready : Bool := false
  encodedFrame : List UInt8 := List.replicate kSoundAssetMaximumEncodedFrameBytes 0

namespace SoundAssetStreamDecoder

/-- `open_embedded` on a closed decoder. -/
def openEmbedded (encoded : List UInt8) (encodedBytes : Nat) :
    SoundAssetReadResult × SoundAssetStreamDecoder :=
  if encodedBytes < kEiadHeaderBytes ∨ kEmbeddedSoundAssetMaximumBytes < encodedBytes ∨
      2 ^ 32 ≤ encodedBytes then (.invalidResource, {})
  else
    let frameCount := readLe16 encoded 12
    let decodedSamples := readLe32 encoded 14
    if encoded.take 4 ≠ kEiadMagic ∨ byteOf encoded 4 ≠ kEiadVersion ∨
        byteOf encoded 5 ≠ kEiadChannels ∨ readLe32 encoded 6 ≠ kSoundAssetSampleRate ∨
        readLe16 encoded 10 ≠ kSoundAssetFrameSamples ∨ frameCount = 0 ∨ decodedSamples = 0 ∨
        kEmbeddedSoundAssetMaximumSamples < decodedSamples ∨
        frameCount ≠ 1 + (decodedSamples - 1) / kSoundAssetFrameSamples ∨
        readLe16 encoded 18 ≠ kEiadHeaderBytes then (.invalidResource, {})
    else
      (.ok, {
        source := some (.embedded encoded)
        encodedBytes := encodedBytes
        totalSamples := decodedSamples
        frameCount := frameCount
        nextEncodedOffset := kEiadHeaderBytes
        ready := true })

/-- `open_streaming`: only the header has to be there yet. -/
def openStreaming (encodedHeader : List UInt8) (encodedBytes : Nat)
    (read : SoundAssetStreamingRead) : SoundAssetReadResult × SoundAssetStreamDecoder :=
  match openEmbedded encodedHeader encodedBytes with
  | (.ok, d) => (.ok, { d with source := some (.streaming read) })
  | (result, d) => (result, d)

/-- `read_encoded`: the bytes it copies. -/
def readEncoded (d : SoundAssetStreamDecoder) (offset length : Nat) :
    SoundAssetReadResult × List UInt8 :=
  if d.ready = false ∨ d.encodedBytes < offset ∨ d.encodedBytes - offset < length then
    (.invalidResource, [])
  else
    match d.source with
    | none => (.notReady, [])
    | some (.streaming read) => read offset length
    | some (.embedded encoded) => (.ok, slice encoded offset length)

/-- The sample loop of `decode_next`, after the first sample. -/
def decodeRest (frame : List UInt8) :
    (remaining sampleIndex : Nat) → (predictor stepIndex : Int) → List Int
  | 0, _, _, _ => []
  | remaining + 1, sampleIndex, predictor, stepIndex =>
    let nibbleIndex := sampleIndex - 1
    let packed := byteOf frame (kSoundAssetFrameHeaderBytes + nibbleIndex / 2)
    let code := if nibbleIndex % 2 = 0 then packed &&& 0x0F else packed >>> 4
    let decoded := decodeNibble code predictor stepIndex
    decoded.1 :: decodeRest frame remaining (sampleIndex + 1) decoded.1 decoded.2

/-- A frame whose header and payload are in the buffer: checked against its place, then decoded. -/
def decodeFrame (d : SoundAssetStreamDecoder) (sampleCount frameBytes : Nat) :
    SoundAssetReadResult × List Int × SoundAssetStreamDecoder :=
  let frame := d.encodedFrame
  if sampleCount % 2 = 0 ∧ sampleCount / 2 ≠ 0 ∧ byteOf frame (frameBytes - 1) &&& 0xF0 ≠ 0 then
    (.invalidResource, [], d)
  else
    let nextEncodedOffset := d.nextEncodedOffset + frameBytes
    let nextDecodedSamples := d.decodedSamples + sampleCount
    let nextFrameIndex := (d.nextFrameIndex + 1) % 2 ^ 16
    let finalFrame := nextFrameIndex = d.frameCount
    if (finalFrame ∧ (nextEncodedOffset ≠ d.encodedBytes ∨ nextDecodedSamples ≠ d.totalSamples)) ∨
        (¬ finalFrame ∧
          (d.encodedBytes ≤ nextEncodedOffset ∨ d.totalSamples ≤ nextDecodedSamples)) then
      (.invalidResource, [], d)
    else
      let predictor := readSignedLe16 frame 2
      let stepIndex := (byteOf frame 4 : Int)
      (.ok, predictor :: decodeRest frame (sampleCount - 1) 1 predictor stepIndex, { d with
        nextEncodedOffset := nextEncodedOffset
        decodedSamples := nextDecodedSamples
        nextFrameIndex := nextFrameIndex })

/-- `decode_next`: the answer and the samples it writes to the output. -/
def decodeNext (d : SoundAssetStreamDecoder) (outputCapacitySamples : Nat) :
    SoundAssetReadResult × List Int × SoundAssetStreamDecoder :=
  if d.ready = false ∨ d.source.isNone then (.notReady, [], d)
  else if d.frameCount ≤ d.nextFrameIndex then
    (if d.nextFrameIndex = d.frameCount ∧ d.decodedSamples = d.totalSamples ∧
        d.nextEncodedOffset = d.encodedBytes then .streamEnd else .invalidResource, [], d)
  else if outputCapacitySamples < kSoundAssetFrameSamples then (.outputTooSmall, [], d)
  else if d.totalSamples ≤ d.decodedSamples ∨ d.encodedBytes < d.nextEncodedOffset ∨
      d.encodedBytes - d.nextEncodedOffset < kSoundAssetFrameHeaderBytes then
    (.invalidResource, [], d)
  else
    let header := d.readEncoded d.nextEncodedOffset kSoundAssetFrameHeaderBytes
    let d := { d with encodedFrame := splice d.encodedFrame 0 header.2 }
    if header.1 ≠ .ok then (header.1, [], d)
    else
      let sampleCount := readLe16 d.encodedFrame 0
      let remainingSamples := d.totalSamples - d.decodedSamples
      let expectedSamples :=
        if remainingSamples < kSoundAssetFrameSamples then remainingSamples
        else kSoundAssetFrameSamples
      let payloadBytes := sampleCount / 2
      let frameBytes := kSoundAssetFrameHeaderBytes + payloadBytes
      if sampleCount = 0 ∨ sampleCount ≠ expectedSamples ∨ kSoundAssetFrameSamples < sampleCount ∨
          kImaStepCount ≤ byteOf d.encodedFrame 4 ∨ byteOf d.encodedFrame 5 ≠ 0 ∨
          kSoundAssetMaximumFramePayloadBytes < payloadBytes ∨
          d.encodedFrame.length < frameBytes ∨
          d.encodedBytes - d.nextEncodedOffset < frameBytes then (.invalidResource, [], d)
      else if payloadBytes ≠ 0 then
        let payload := d.readEncoded (d.nextEncodedOffset + kSoundAssetFrameHeaderBytes) payloadBytes
        let d := { d with
          encodedFrame := splice d.encodedFrame kSoundAssetFrameHeaderBytes payload.2 }
        if payload.1 ≠ .ok then (payload.1, [], d) else d.decodeFrame sampleCount frameBytes
      else d.decodeFrame sampleCount frameBytes

/-- `decode_next` called until it answers anything but `Ok`, at most `calls` times: all samples, and
    the last answer. -/
def decodeUntilEnd (outputCapacitySamples : Nat) :
    (calls : Nat) → SoundAssetStreamDecoder → List Int × SoundAssetReadResult
  | 0, _ => ([], .ok)
  | calls + 1, d =>
    match d.decodeNext outputCapacitySamples with
    | (.ok, samples, d) =>
      let rest := decodeUntilEnd outputCapacitySamples calls d
      (samples ++ rest.1, rest.2)
    | (result, samples, _) => (samples, result)

end SoundAssetStreamDecoder

end CodexKeyboard.Device
