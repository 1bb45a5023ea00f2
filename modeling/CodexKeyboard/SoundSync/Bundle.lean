import CodexKeyboard.SoundSync.Frame
import Mathlib.Data.UInt

/-! The bundle plan, the progress of an update and the fragment assemblers.

    An assembler is the list of its bytes, each there once it was received. The plan assembler and the
    block assembler take fragments in the same way, under a different key: the owner's route and
    request for the plan, the region and unit for a block. -/

namespace CodexKeyboard.SoundSync

open Schemes.Bytes

def soundSectorSize : ℕ := 0x1000
def soundPayloadMaxSize : ℕ := 0x80000
def soundPayloadBlockSize : ℕ := soundSectorSize
def soundPayloadBlockCount : ℕ := soundPayloadMaxSize / soundPayloadBlockSize
def soundTransactionIdBytes : ℕ := 16

abbrev SoundSha256Digest := List UInt8

def zeroDigest : SoundSha256Digest := List.replicate 32 0

inductive SoundBankId
  | a
  | b
deriving DecidableEq

def SoundBankId.code : SoundBankId → UInt8
  | .a => 0
  | .b => 1

inductive SoundStoreResult
  | ok
  | invalidArgument
  | unavailable
  | ioError
  | invalidBank
  | invalidStaging
  | invalidManifest
  | crcMismatch
  | hashMismatch
  | incomplete
  | busy
  | bankPinned
  | staleBase
  | generationExhausted
  | transactionMismatch
  | splitBrain
  | factoryBlank
deriving DecidableEq

structure SoundBankSnapshot where
  valid : Bool := false
  bank : SoundBankId := .a
  generation : UInt64 := 0
  baseGeneration : UInt64 := 0
  transactionId : List UInt8 := List.replicate soundTransactionIdBytes 0
  manifestBytes : UInt32 := 0
  payloadBytes : UInt32 := 0
  manifestSha256 : SoundSha256Digest := zeroDigest
  bundleSha256 : SoundSha256Digest := zeroDigest
deriving DecidableEq

structure SoundBundlePlan where
  baseGeneration : UInt64 := 0
  baseBundleSha256 : SoundSha256Digest := zeroDigest
  manifestBytes : UInt32 := 0
  payloadBytes : UInt32 := 0
  manifestCrc32 : UInt32 := 0
  manifestSha256 : SoundSha256Digest := zeroDigest
  bundleSha256 : SoundSha256Digest := zeroDigest
  payloadBlockCrc32 : List UInt32 := List.replicate soundPayloadBlockCount 0
deriving DecidableEq

structure SoundUpdateIdentity where
  generation : UInt64 := 0
  targetBank : SoundBankId := .a
  transactionId : List UInt8 := List.replicate soundTransactionIdBytes 0
deriving DecidableEq

structure SoundUpdateProgress where
  identity : SoundUpdateIdentity := {}
  manifestBytes : UInt32 := 0
  payloadBytes : UInt32 := 0
  payloadBlockCount : UInt16 := 0
  manifestComplete : Bool := false
  payloadCompleteBitmap : List UInt8 := List.replicate (soundPayloadBlockCount / 8) 0
  bundleSha256 : SoundSha256Digest := zeroDigest
deriving DecidableEq

/-! ### The plan on the wire -/

/-- `payload_block_count`. -/
def payloadBlockCountOf (payloadBytes : UInt32) : ℕ :=
  if payloadBytes = 0 then 0
  else (payloadBytes.toNat + soundPayloadBlockSize - 1) / soundPayloadBlockSize

def soundBundlePlanShapeIsValid (plan : SoundBundlePlan) : Bool :=
  decide (32 ≤ plan.manifestBytes.toNat) && decide (plan.manifestBytes.toNat ≤ soundSectorSize) &&
    decide (plan.payloadBytes.toNat ≤ soundPayloadMaxSize) &&
    plan.manifestSha256.any (· != 0) && plan.bundleSha256.any (· != 0) &&
    ((plan.baseGeneration == 0) == plan.baseBundleSha256.all (· == 0)) &&
    decide (payloadBlockCountOf plan.payloadBytes ≤ soundPayloadBlockCount) &&
    (plan.payloadBlockCrc32.drop (payloadBlockCountOf plan.payloadBytes)).all (· == 0)

variable (crc32 : List UInt8 → UInt32)

/-- The plan up to its checksum: `EIBP`, version 1 and the length first. -/
def planBody (plan : SoundBundlePlan) : List UInt8 :=
  [0x45, 0x49, 0x42, 0x50] ++ leBytes 2 1 ++ leBytes 2 speakerAssetsPlanWireBytes ++
    leBytes 8 plan.baseGeneration.toNat ++ plan.baseBundleSha256 ++
    leBytes 4 plan.manifestBytes.toNat ++ leBytes 4 plan.payloadBytes.toNat ++
    leBytes 4 plan.manifestCrc32.toNat ++ plan.manifestSha256 ++ plan.bundleSha256 ++
    plan.payloadBlockCrc32.flatMap fun crc => leBytes 4 crc.toNat

def encodeSoundBundlePlanWire (plan : SoundBundlePlan) :
    SpeakerAssetsProtocolResult × List UInt8 :=
  if soundBundlePlanShapeIsValid plan then
    (.ok, planBody plan ++ leBytes 4 (crc32 (planBody plan)).toNat)
  else (.invalidPlan, [])

def decodeSoundBundlePlanWire (encoded : List UInt8) :
    SpeakerAssetsProtocolResult × SoundBundlePlan :=
  let decoded : SoundBundlePlan :=
    { baseGeneration := UInt64.ofNat (readLe encoded 8 8)
      baseBundleSha256 := slice encoded 16 32
      manifestBytes := UInt32.ofNat (readLe encoded 48 4)
      payloadBytes := UInt32.ofNat (readLe encoded 52 4)
      manifestCrc32 := UInt32.ofNat (readLe encoded 56 4)
      manifestSha256 := slice encoded 60 32
      bundleSha256 := slice encoded 92 32
      payloadBlockCrc32 := (List.range soundPayloadBlockCount).map fun index =>
        UInt32.ofNat (readLe encoded (124 + index * 4) 4) }
  if encoded.length ≠ speakerAssetsPlanWireBytes then (.invalidLength, {})
  else if encoded.take 4 ≠ [0x45, 0x49, 0x42, 0x50] then (.invalidMagic, {})
  else if readLe encoded 4 2 ≠ 1 then (.unsupportedVersion, {})
  else if readLe encoded 6 2 ≠ speakerAssetsPlanWireBytes then (.invalidLength, {})
  else if (crc32 (encoded.take 636)).toNat ≠ readLe encoded 636 4 then (.crcMismatch, {})
  else if !soundBundlePlanShapeIsValid decoded then (.invalidPlan, {})
  else (.ok, decoded)

/-! ### Fragments -/

/-- The bytes of a unit, each there once it was received. -/
abbrev FragmentBuffer := List (Option UInt8)

namespace FragmentBuffer

def empty (length : ℕ) : FragmentBuffer := List.replicate length none

/-- A byte of the fragment differs from one received before. -/
def conflicts (buffer : FragmentBuffer) (offset : ℕ) (data : List UInt8) : Bool :=
  ((buffer.drop offset).zip data).any fun (known, byte) => known.any (· != byte)

/-- The fragment's bytes join those received before. -/
def fill (buffer : FragmentBuffer) (offset : ℕ) (data : List UInt8) : FragmentBuffer :=
  buffer.take offset ++ ((buffer.drop offset).zip data).map (fun (known, byte) => known.or byte) ++
    buffer.drop (offset + data.length)

/-- The checks and the loops of `accept_fragment`, once the fragment's owner or unit is the right one. -/
def accept (buffer : FragmentBuffer) (offset : ℕ) (data : List UInt8) :
    SpeakerAssetsProtocolResult × FragmentBuffer :=
  if data = [] then (.invalidArgument, buffer)
  else if speakerAssetsWifiFrameBodyBytes < data.length ∨ buffer.length < offset + data.length then
    (.outOfBounds, buffer)
  else if buffer.conflicts offset data then (.conflict, buffer)
  else (.ok, buffer.fill offset data)

def receivedBytes (buffer : FragmentBuffer) : ℕ := buffer.countP Option.isSome

def isFull (buffer : FragmentBuffer) : Bool := buffer.all Option.isSome

def firstMissingOffset (buffer : FragmentBuffer) : ℕ := buffer.findIdx Option.isNone

/-- The bytes, zero where none was received. -/
def bytes (buffer : FragmentBuffer) : List UInt8 := buffer.map (·.getD 0)

/-- The received bits of eight bytes, the first in the lowest bit. -/
def bitmapByte (buffer : FragmentBuffer) (index : ℕ) : UInt8 :=
  ((List.range 8).map fun bit =>
    if (buffer.getD (8 * index + bit) none).isSome then UInt8.ofNat (2 ^ bit) else 0).sum

/-- `copy_received_bitmap` of a buffer whose bitmap has `(length + 7) / 8` bytes. -/
def copyReceivedBitmap (buffer : FragmentBuffer) (bitmapOffset length : ℕ) : Option (List UInt8) :=
  if bitmapOffset + length ≤ (buffer.length + 7) / 8 then
    some ((List.range length).map fun index => buffer.bitmapByte (bitmapOffset + index))
  else none

end FragmentBuffer

/-- The plan's assembler, bound to one route and request or to none. -/
structure SpeakerAssetsPlanAssembler where
  bound : Option (SpeakerAssetsRouteToken × UInt32) := none
  buffer : FragmentBuffer := FragmentBuffer.empty speakerAssetsPlanWireBytes
deriving DecidableEq

namespace SpeakerAssetsPlanAssembler

def begin (assembler : SpeakerAssetsPlanAssembler) (owner : SpeakerAssetsRouteToken) (beginId : UInt32) :
    SpeakerAssetsProtocolResult × SpeakerAssetsPlanAssembler :=
  if !owner.shapeIsValid || beginId == 0 then (.invalidArgument, assembler)
  else
    match assembler.bound with
    | some key => (if key = (owner, beginId) then .ok else .wrongOwner, assembler)
    | none => (.ok, { assembler with bound := some (owner, beginId) })

def acceptFragment (assembler : SpeakerAssetsPlanAssembler) (owner : SpeakerAssetsRouteToken)
    (beginId : UInt32) (offset : ℕ) (data : List UInt8) :
    SpeakerAssetsProtocolResult × SpeakerAssetsPlanAssembler :=
  if assembler.bound ≠ some (owner, beginId) then (.wrongOwner, assembler)
  else
    ((assembler.buffer.accept offset data).1,
      { assembler with buffer := (assembler.buffer.accept offset data).2 })

def complete (assembler : SpeakerAssetsPlanAssembler) : Bool :=
  assembler.bound.isSome && assembler.buffer.isFull

def decode (assembler : SpeakerAssetsPlanAssembler) : SpeakerAssetsProtocolResult × SoundBundlePlan :=
  if assembler.complete then decodeSoundBundlePlanWire crc32 assembler.buffer.bytes
  else (.incomplete, {})

end SpeakerAssetsPlanAssembler

/-- The unit an active block assembler holds, of as many bytes as it expects. -/
structure AssembledUnit where
  region : SpeakerAssetsRegion
  unitIndex : UInt16
  buffer : FragmentBuffer
deriving DecidableEq

/-- One manifest or payload unit, or none. -/
abbrev SpeakerAssetsBlockAssembler := Option AssembledUnit

namespace SpeakerAssetsBlockAssembler

def begin (region : SpeakerAssetsRegion) (unitIndex : UInt16) (expectedBytes : ℕ)
    (assembler : SpeakerAssetsBlockAssembler) :
    SpeakerAssetsProtocolResult × SpeakerAssetsBlockAssembler :=
  if expectedBytes = 0 ∨ soundPayloadBlockSize < expectedBytes ∨
      (region = .manifest ∧ unitIndex ≠ 0) ∨
      (region = .payload ∧ soundPayloadBlockCount ≤ unitIndex.toNat) then (.invalidArgument, assembler)
  else (.ok, some ⟨region, unitIndex, FragmentBuffer.empty expectedBytes⟩)

def acceptFragment (assembler : SpeakerAssetsBlockAssembler) (region : SpeakerAssetsRegion)
    (unitIndex : UInt16) (offset : ℕ) (data : List UInt8) :
    SpeakerAssetsProtocolResult × SpeakerAssetsBlockAssembler :=
  match assembler with
  | none => (.incomplete, none)
  | some block =>
    if region ≠ block.region ∨ unitIndex ≠ block.unitIndex then (.wrongUnit, some block)
    else
      ((block.buffer.accept offset data).1,
        some { block with buffer := (block.buffer.accept offset data).2 })

def complete (assembler : SpeakerAssetsBlockAssembler) : Bool :=
  Option.any (·.buffer.isFull) assembler

def buffer (assembler : SpeakerAssetsBlockAssembler) : FragmentBuffer :=
  (Option.map AssembledUnit.buffer assembler).getD []

end SpeakerAssetsBlockAssembler

end CodexKeyboard.SoundSync
