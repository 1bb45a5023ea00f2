import CodexKeyboard.Schemes.Bytes

/-! The Host's audio: PCM, the EIAD container of the cache, its IMA ADPCM frames, and the container
    the speaker of the keyboard takes. -/

namespace CodexKeyboard.Audio

open Schemes.Chunks Schemes.Bytes

def ttsSampleRate : Nat := 48000
def maxTtsSeconds : Nat := 150
def eiadFrameSamples : Nat := 960
def deviceEiadFrameSamples : Nat := 480
def deviceEiadHeaderBytes : Nat := 20
def deviceEiadFrameHeaderBytes : Nat := 6
def eiadHeaderBytes : Nat := 32
def eiadFrameHeaderBytes : Nat := 8
def eiadVersion : Nat := 1

def imaIndexTable : List Int := [-1, -1, -1, -1, 2, 4, 6, 8, -1, -1, -1, -1, 2, 4, 6, 8]

def imaStepTable : List Int := [
  7, 8, 9, 10, 11, 12, 13, 14, 16, 17, 19, 21, 23, 25, 28, 31, 34, 37, 41, 45, 50, 55, 60, 66,
  73, 80, 88, 97, 107, 118, 130, 143, 157, 173, 190, 209, 230, 253, 279, 307, 337, 371, 408, 449,
  494, 544, 598, 658, 724, 796, 876, 963, 1060, 1166, 1282, 1411, 1552, 1707, 1878, 2066, 2272,
  2499, 2749, 3024, 3327, 3660, 4026, 4428, 4871, 5358, 5894, 6484, 7132, 7845, 8630, 9493,
  10442, 11487, 12635, 13899, 15289, 16818, 18500, 20350, 22385, 24623, 27086, 29794, 32767]

inductive AudioError where
  | invalidPcm | invalidWav | invalidEiad | size
  deriving DecidableEq, Repr

/-! ### Numbers -/

def eiadMagic : List UInt8 := [0x45, 0x49, 0x41, 0x44]

def readUint (width : Nat) (bytes : List UInt8) (offset : Nat) : Nat := leNat (slice bytes offset width)

def readU16 := readUint 2
def readU32 := readUint 4
def readU64 := readUint 8

/-- `bytes[offset]`. -/
def byteAt (bytes : List UInt8) (offset : Nat) : Nat := (bytes.getD offset 0).toNat

/-- `i16::from_le_bytes`. -/
def i16FromLe (bytes : List UInt8) : Int :=
  let raw := leNat bytes
  if raw < 2 ^ 15 then raw else (raw : Int) - 2 ^ 16

/-- `i16::to_le_bytes`. -/
def i16ToLe (sample : Int) : List UInt8 := leBytes 2 (sample % 2 ^ 16).toNat

def clamp (low high value : Int) : Int := max low (min high value)

/-- The samples of `chunks_exact(2)`. -/
def pcmSamples : List UInt8 → List Int
  | low :: high :: rest => i16FromLe [low, high] :: pcmSamples rest
  | _ => []

/-! ### IMA ADPCM -/

def nextStepIndex (stepIndex : Int) (code : Nat) : Int :=
  clamp 0 88 (stepIndex + imaIndexTable.getD code 0)

/-- `encode_ima_sample`: the code, the predictor and the step index after it. -/
def encodeImaSample (sample predictor stepIndex : Int) : Nat × Int × Int :=
  let step := imaStepTable.getD stepIndex.toNat 0
  let negative := sample - predictor < 0
  let difference := if negative then -(sample - predictor) else sample - predictor
  let delta := step >>> (3 : Nat)
  let four := step ≤ difference
  let delta := if four then delta + step else delta
  let difference := if four then difference - step else difference
  let two := step >>> (1 : Nat) ≤ difference
  let delta := if two then delta + (step >>> (1 : Nat)) else delta
  let difference := if two then difference - (step >>> (1 : Nat)) else difference
  let one := step >>> (2 : Nat) ≤ difference
  let delta := if one then delta + (step >>> (2 : Nat)) else delta
  let code := (if negative then 8 else 0) ||| (if four then 4 else 0) ||| (if two then 2 else 0) |||
    (if one then 1 else 0)
  let predictor := if negative then predictor - delta else predictor + delta
  (code, clamp (-2 ^ 15) (2 ^ 15 - 1) predictor, nextStepIndex stepIndex code)

/-- `decode_ima_sample`: the predictor and the step index after the code. -/
def decodeImaSample (code : Nat) (predictor stepIndex : Int) : Int × Int :=
  let step := imaStepTable.getD stepIndex.toNat 0
  let delta := step >>> (3 : Nat)
  let delta := if code &&& 4 ≠ 0 then delta + step else delta
  let delta := if code &&& 2 ≠ 0 then delta + (step >>> (1 : Nat)) else delta
  let delta := if code &&& 1 ≠ 0 then delta + (step >>> (2 : Nat)) else delta
  let predictor := if code &&& 8 ≠ 0 then predictor - delta else predictor + delta
  (clamp (-2 ^ 15) (2 ^ 15 - 1) predictor, nextStepIndex stepIndex code)

/-- The loop of `encode_ima_frame_with_layout`: two codes a byte, the first in the low half. -/
def encodeImaRest : List Int → (pending : Option Nat) → (predictor stepIndex : Int) → List UInt8
  | [], none, _, _ => []
  | [], some low, _, _ => [UInt8.ofNat low]
  | sample :: rest, none, predictor, stepIndex =>
    let encoded := encodeImaSample sample predictor stepIndex
    encodeImaRest rest (some encoded.1) encoded.2.1 encoded.2.2
  | sample :: rest, some low, predictor, stepIndex =>
    let encoded := encodeImaSample sample predictor stepIndex
    UInt8.ofNat (low ||| (encoded.1 <<< 4)) :: encodeImaRest rest none encoded.2.1 encoded.2.2

/-- The step a frame starts with: the first as large as its first difference. -/
def initialStepIndex (first : Int) (rest : List Int) : Nat :=
  match rest with
  | [] => 0
  | second :: _ =>
    let difference := |second - first|
    (imaStepTable.findIdx? fun step => decide (max difference 7 ≤ step)).getD 88

def encodeImaFrameWithLayout (samples : List Int) (includePayloadLength : Bool) :
    Except AudioError (List UInt8) :=
  match samples with
  | [] => .error .invalidPcm
  | first :: rest =>
    let encodedBytes := (rest.length + 1) / 2
    let stepIndex := initialStepIndex first rest
    if 2 ^ 16 ≤ samples.length then .error .size
    else if includePayloadLength ∧ 2 ^ 16 ≤ encodedBytes then .error .size
    else
      .ok (leBytes 2 samples.length ++ i16ToLe first ++ [UInt8.ofNat stepIndex, 0] ++
        (if includePayloadLength then leBytes 2 encodedBytes else []) ++
        encodeImaRest rest none first stepIndex)

/-- Every chunk of the samples as a frame. -/
def encodeFrames (frameSamples : Nat) (includePayloadLength : Bool) (samples : List Int) :
    Except AudioError (List UInt8) := do
  let frames ← (chunks frameSamples samples).mapM fun frame =>
    encodeImaFrameWithLayout frame includePayloadLength
  .ok frames.flatten

/-! ### PCM and WAV -/

def validatePcm (pcm : List UInt8) : Except AudioError Nat :=
  if pcm = [] ∨ pcm.length % 2 ≠ 0 then .error .invalidPcm
  else
    let samples := pcm.length / 2
    if ttsSampleRate * maxTtsSeconds < samples then .error .invalidPcm else .ok samples

def magicRiff : List UInt8 := [0x52, 0x49, 0x46, 0x46]
def magicWavefmt : List UInt8 := [0x57, 0x41, 0x56, 0x45, 0x66, 0x6D, 0x74, 0x20]
def magicData : List UInt8 := [0x64, 0x61, 0x74, 0x61]

def encodeWav (pcm : List UInt8) : Except AudioError (List UInt8) := do
  let _ ← validatePcm pcm
  if 2 ^ 32 ≤ pcm.length then .error .size
  else if 2 ^ 32 ≤ pcm.length + 36 then .error .size
  else
    .ok (magicRiff ++ leBytes 4 (pcm.length + 36) ++ magicWavefmt ++ leBytes 4 16 ++ leBytes 2 1 ++
      leBytes 2 1 ++ leBytes 4 ttsSampleRate ++ leBytes 4 (ttsSampleRate * 2) ++ leBytes 2 2 ++
      leBytes 2 16 ++ magicData ++ leBytes 4 pcm.length ++ pcm)

/-! ### The container of the cache -/

def eiadHeader (samples frames : Nat) : List UInt8 :=
  eiadMagic ++ leBytes 2 eiadVersion ++ leBytes 2 eiadHeaderBytes ++ leBytes 4 ttsSampleRate ++
    leBytes 2 1 ++ leBytes 2 4 ++ leBytes 2 eiadFrameSamples ++ leBytes 2 eiadFrameHeaderBytes ++
    leBytes 8 samples ++ leBytes 4 frames

def encodeEiad (pcm : List UInt8) : Except AudioError (List UInt8) := do
  let totalSamples ← validatePcm pcm
  let frameCount := (totalSamples + eiadFrameSamples - 1) / eiadFrameSamples
  if 2 ^ 32 ≤ frameCount then .error .size
  else
    let frames ← encodeFrames eiadFrameSamples true (pcmSamples pcm)
    .ok (eiadHeader totalSamples frameCount ++ frames)

structure EiadMetadata where
  sampleRate : Nat
  samples : Nat
  frames : Nat
  deriving DecidableEq, Repr

/-- The loop of `inspect_eiad`; the last round is the one with no more `remaining`. -/
def inspectFrames (eiad : List UInt8) (samples : Nat) :
    (remaining offset countedSamples : Nat) → Except AudioError (Nat × Nat)
  | 0, offset, countedSamples => .ok (offset, countedSamples)
  | remaining + 1, offset, countedSamples =>
    let stop := offset + eiadFrameHeaderBytes
    if eiad.length < stop then .error .invalidEiad
    else
      let frameSamples := readU16 eiad offset
      let payloadBytes := readU16 eiad (offset + 6)
      let expectedSamples := if remaining = 0 then samples - countedSamples else eiadFrameSamples
      let expectedPayload := (expectedSamples - 1 + 1) / 2
      if frameSamples ≠ expectedSamples ∨ frameSamples = 0 ∨ eiadFrameSamples < frameSamples ∨
          88 < byteAt eiad (offset + 4) ∨ byteAt eiad (offset + 5) ≠ 0 ∨
          payloadBytes ≠ expectedPayload then .error .invalidEiad
      else
        let frameEnd := stop + payloadBytes
        if eiad.length < frameEnd then .error .invalidEiad
        else if (frameSamples - 1) % 2 ≠ 0 ∧ byteAt eiad (frameEnd - 1) &&& 0xF0 ≠ 0 then
          .error .invalidEiad
        else inspectFrames eiad samples remaining frameEnd (countedSamples + frameSamples)

def inspectEiad (eiad : List UInt8) : Except AudioError EiadMetadata :=
  if eiad.length < eiadHeaderBytes ∨ eiad.take 4 ≠ eiadMagic ∨ readU16 eiad 4 ≠ eiadVersion ∨
      readU16 eiad 6 ≠ eiadHeaderBytes ∨ readU32 eiad 8 ≠ ttsSampleRate ∨ readU16 eiad 12 ≠ 1 ∨
      readU16 eiad 14 ≠ 4 ∨ readU16 eiad 16 ≠ eiadFrameSamples ∨
      readU16 eiad 18 ≠ eiadFrameHeaderBytes then .error .invalidEiad
  else
    let samples := readU64 eiad 20
    let frames := readU32 eiad 28
    if samples = 0 ∨ ttsSampleRate * maxTtsSeconds < samples ∨
        frames ≠ (samples + eiadFrameSamples - 1) / eiadFrameSamples then .error .invalidEiad
    else do
      let (offset, countedSamples) ← inspectFrames eiad samples frames eiadHeaderBytes 0
      if offset ≠ eiad.length ∨ countedSamples ≠ samples then .error .invalidEiad
      else .ok ⟨ttsSampleRate, samples, frames⟩

/-- The inner loop of `decode_eiad`, over the samples of a frame after its first. -/
def decodeImaRest (payload : List UInt8) :
    (remaining sampleIndex : Nat) → (predictor stepIndex : Int) → List Int
  | 0, _, _, _ => []
  | remaining + 1, sampleIndex, predictor, stepIndex =>
    let packed := byteAt payload ((sampleIndex - 1) / 2)
    let nibble := if sampleIndex % 2 ≠ 0 then packed &&& 0x0F else packed >>> 4
    let decoded := decodeImaSample nibble predictor stepIndex
    decoded.1 :: decodeImaRest payload remaining (sampleIndex + 1) decoded.1 decoded.2

/-- A frame of `samples` samples from its predictor, step index and codes. -/
def decodeImaFrame (predictor stepIndex : Int) (payload : List UInt8) (samples : Nat) : List Int :=
  predictor :: decodeImaRest payload (samples - 1) 1 predictor stepIndex

/-- The outer loop of `decode_eiad`. -/
def decodeFrames (eiad : List UInt8) : (remaining offset : Nat) → List Int
  | 0, _ => []
  | remaining + 1, offset =>
    let samples := readU16 eiad offset
    let predictor := i16FromLe (slice eiad (offset + 2) 2)
    let stepIndex := byteAt eiad (offset + 4)
    let payloadBytes := readU16 eiad (offset + 6)
    let body := offset + eiadFrameHeaderBytes
    decodeImaFrame predictor stepIndex (eiad.drop body) samples ++
      decodeFrames eiad remaining (body + payloadBytes)

def decodeEiad (eiad : List UInt8) : Except AudioError (List UInt8) := do
  let metadata ← inspectEiad eiad
  .ok ((decodeFrames eiad metadata.frames eiadHeaderBytes).flatMap i16ToLe)

structure AudioArtifacts where
  wav : List UInt8
  eiad : List UInt8
  samples : Nat
  frames : Nat
  deriving DecidableEq, Repr

def encodeTtsAudio (pcm : List UInt8) : Except AudioError AudioArtifacts := do
  let samples ← validatePcm pcm
  let wav ← encodeWav pcm
  let eiad ← encodeEiad pcm
  let metadata ← inspectEiad eiad
  if metadata.samples ≠ samples ∨ metadata.sampleRate ≠ ttsSampleRate then .error .invalidEiad
  else .ok ⟨wav, eiad, samples, metadata.frames⟩

/-! ### The container of the speaker -/

def deviceEiadHeader (samples frames : Nat) : List UInt8 :=
  eiadMagic ++ [1, 1] ++ leBytes 4 ttsSampleRate ++ leBytes 2 deviceEiadFrameSamples ++
    leBytes 2 frames ++ leBytes 4 samples ++ leBytes 2 deviceEiadHeaderBytes

/-- The loop of `inspect_device_eiad`. -/
def inspectDeviceFrames (eiad : List UInt8) (samples : Nat) :
    (remaining offset countedSamples : Nat) → Except AudioError (Nat × Nat)
  | 0, offset, countedSamples => .ok (offset, countedSamples)
  | remaining + 1, offset, countedSamples =>
    let stop := offset + deviceEiadFrameHeaderBytes
    if eiad.length < stop then .error .invalidEiad
    else
      let frameSamples := readU16 eiad offset
      let expectedSamples :=
        if remaining = 0 then samples - countedSamples else deviceEiadFrameSamples
      if frameSamples ≠ expectedSamples ∨ frameSamples = 0 ∨ 88 < byteAt eiad (offset + 4) ∨
          byteAt eiad (offset + 5) ≠ 0 then .error .invalidEiad
      else
        let offset := stop + (frameSamples - 1 + 1) / 2
        if eiad.length < offset then .error .invalidEiad
        else inspectDeviceFrames eiad samples remaining offset (countedSamples + frameSamples)

def inspectDeviceEiad (eiad : List UInt8) : Except AudioError EiadMetadata :=
  if eiad.length < deviceEiadHeaderBytes ∨ eiad.take 4 ≠ eiadMagic ∨ byteAt eiad 4 ≠ 1 ∨
      byteAt eiad 5 ≠ 1 ∨ readU32 eiad 6 ≠ ttsSampleRate ∨
      readU16 eiad 10 ≠ deviceEiadFrameSamples ∨ readU16 eiad 18 ≠ deviceEiadHeaderBytes then
    .error .invalidEiad
  else
    let frames := readU16 eiad 12
    let samples := readU32 eiad 14
    if samples = 0 ∨ ttsSampleRate * maxTtsSeconds < samples ∨
        frames ≠ (samples + deviceEiadFrameSamples - 1) / deviceEiadFrameSamples then
      .error .invalidEiad
    else do
      let (offset, countedSamples) ← inspectDeviceFrames eiad samples frames deviceEiadHeaderBytes 0
      if offset ≠ eiad.length ∨ countedSamples ≠ samples then .error .invalidEiad
      else .ok ⟨ttsSampleRate, samples, frames⟩

def transcodeEiadForDevice (eiad : List UInt8) : Except AudioError (List UInt8) := do
  let pcm ← decodeEiad eiad
  let totalSamples ← validatePcm pcm
  let frameCount := (totalSamples + deviceEiadFrameSamples - 1) / deviceEiadFrameSamples
  if 2 ^ 16 ≤ frameCount then .error .size
  else if 2 ^ 32 ≤ totalSamples then .error .size
  else
    let frames ← encodeFrames deviceEiadFrameSamples false (pcmSamples pcm)
    let output := deviceEiadHeader totalSamples frameCount ++ frames
    let _ ← inspectDeviceEiad output
    .ok output

end CodexKeyboard.Audio
