import CodexKeyboard.SoundSync.PlanWire

/-! The staging header of `sound_asset_store.cpp`: 704 bytes that keep a plan, its generation and its transaction over a
    restart. Checksums and digests are taken in units that the storage may refuse. -/

namespace CodexKeyboard.SoundSync

open Schemes.Bytes

/-! ### Storage answers -/

inductive SoundStorageIoResult
  | ok
  | invalidArgument
  | outOfBounds
  | notAligned
  | unavailable
  | ioError
deriving DecidableEq

def mapIo : SoundStorageIoResult → SoundStoreResult
  | .ok => .ok
  | .unavailable => .unavailable
  | .invalidArgument | .outOfBounds | .notAligned => .invalidArgument
  | .ioError => .ioError

def kIoBufferBytes : ℕ := 256
def kStagingHeaderBytes : ℕ := 704
def kStagingHeaderCrcOffset : ℕ := 700
def kStorageVersion : ℕ := 1

/-! ### Checksums -/

/-- One of the eight steps for a byte. -/
def crc32Bit (state : UInt32) : UInt32 :=
  (state >>> 1) ^^^ (if state &&& 1 != 0 then 0xEDB88320 else 0)

def crc32Byte (state : UInt32) (byte : UInt8) : UInt32 := crc32Bit^[8] (state ^^^ byte.toUInt32)

def crc32Update (state : UInt32) (data : List UInt8) : UInt32 := data.foldl crc32Byte state

def soundCrc32IsoHdlc (data : List UInt8) : UInt32 := crc32Update 0xFFFFFFFF data ^^^ 0xFFFFFFFF

/-- The loop of `checkpointed_memory_crc32`: `checkpoint` answers the call that is made before the unit at an offset. -/
def crc32Loop (checkpoint : ℕ → SoundStorageIoResult) :
    (fuel consumed : ℕ) → (rest : List UInt8) → (state : UInt32) → Except SoundStorageIoResult UInt32
  | 0, _, _, state => .ok state
  | fuel + 1, consumed, rest, state =>
    if rest = [] then .ok state
    else
      match checkpoint consumed with
      | .ok => crc32Loop checkpoint fuel (consumed + (rest.take kIoBufferBytes).length) (rest.drop kIoBufferBytes)
          (crc32Update state (rest.take kIoBufferBytes))
      | refused => .error refused

def checkpointedMemoryCrc32 (checkpoint : ℕ → SoundStorageIoResult) (data : List UInt8) :
    Except SoundStoreResult UInt32 :=
  match crc32Loop checkpoint data.length 0 data 0xFFFFFFFF with
  | .ok state => .ok (state ^^^ 0xFFFFFFFF)
  | .error refused => .error (mapIo refused)

variable {checkpoint : ℕ → SoundStorageIoResult} {data encoded : List UInt8}

/-- Whatever units it is taken in, the checksum is that of all the bytes. -/
theorem crc32Loop_ok {fuel consumed : ℕ} {state result : UInt32} (hfuel : data.length ≤ fuel)
    (h : crc32Loop checkpoint fuel consumed data state = .ok result) : result = crc32Update state data := by
  induction fuel generalizing consumed data state with
  | zero =>
    cases List.eq_nil_of_length_eq_zero (Nat.le_zero.1 hfuel)
    cases h
    rfl
  | succ fuel ih =>
    rw [crc32Loop] at h
    split at h
    next hempty =>
      cases h
      rw [hempty]
      rfl
    next hsome =>
      have hpos := List.length_pos_iff.2 hsome
      split at h
      next =>
        have hshort : (data.drop kIoBufferBytes).length ≤ fuel := by
          rw [List.length_drop, kIoBufferBytes]
          omega
        rw [ih hshort h, crc32Update, crc32Update, crc32Update, ← List.foldl_append, List.take_append_drop]
      next => cases h

theorem crc32Loop_allowed (hallowed : ∀ offset, checkpoint offset = .ok) (fuel consumed : ℕ) (data : List UInt8)
    (state : UInt32) : ∃ result, crc32Loop checkpoint fuel consumed data state = .ok result := by
  induction fuel generalizing consumed data state with
  | zero => exact ⟨state, rfl⟩
  | succ fuel ih =>
    rw [crc32Loop]
    split
    next => exact ⟨state, rfl⟩
    next =>
      rw [hallowed]
      exact ih _ _ _

theorem checkpointed_allowed (hallowed : ∀ offset, checkpoint offset = .ok) (data : List UInt8) :
    checkpointedMemoryCrc32 checkpoint data = .ok (soundCrc32IsoHdlc data) := by
  obtain ⟨state, hloop⟩ := crc32Loop_allowed hallowed data.length 0 data 0xFFFFFFFF
  rw [checkpointedMemoryCrc32, hloop, crc32Loop_ok (Nat.le_refl _) hloop]
  rfl

/-! ### Plans -/

/-- `plan_is_valid` of the store. -/
def planIsValid (plan : SoundBundlePlan) : Bool :=
  if plan.manifestBytes.toNat < 32 || soundSectorSize < plan.manifestBytes.toNat ||
      soundPayloadMaxSize < plan.payloadBytes.toNat || plan.manifestSha256.all (· == 0) ||
      plan.bundleSha256.all (· == 0) then false
  else if soundPayloadBlockCount < payloadBlockCountOf plan.payloadBytes then false
  else if (plan.payloadBlockCrc32.drop (payloadBlockCountOf plan.payloadBytes)).any (· != 0) then false
  else if plan.baseGeneration = 0 then plan.baseBundleSha256.all (· == 0)
  else !plan.baseBundleSha256.all (· == 0)

theorem any_ne_zero {α : Type} [DecidableEq α] (zero : α) (values : List α) :
    values.any (· != zero) = !values.all (· == zero) := by
  rw [List.not_all_eq_any_not]
  rfl

/-- The store accepts the plans that the wire format accepts. -/
theorem planIsValid_eq (plan : SoundBundlePlan) : planIsValid plan = soundBundlePlanShapeIsValid plan := by
  have hbase : (if plan.baseGeneration = 0 then plan.baseBundleSha256.all (· == 0) else
      !plan.baseBundleSha256.all (· == 0)) = ((plan.baseGeneration == 0) == plan.baseBundleSha256.all (· == 0)) := by
    by_cases hzero : plan.baseGeneration = 0
    · simp [hzero]
    · have hfalse : (plan.baseGeneration == 0) = false := beq_eq_false_iff_ne.2 hzero
      rw [if_neg hzero, hfalse]
      cases plan.baseBundleSha256.all (· == 0) <;> rfl
  rw [planIsValid, soundBundlePlanShapeIsValid, hbase, any_ne_zero, any_ne_zero, any_ne_zero]
  rw [Bool.eq_iff_iff]
  split_ifs with hsizes hcount hblocks
  · simp only [Bool.or_eq_true, decide_eq_true_eq] at hsizes
    simp only [Bool.and_eq_true, decide_eq_true_eq, Bool.not_eq_true', false_iff]
    rintro ⟨⟨⟨⟨⟨⟨⟨hshort, hlong⟩, hpayload⟩, hmanifest⟩, hbundle⟩, -⟩, -⟩, -⟩
    rcases hsizes with (((h | h) | h) | h) | h
    · omega
    · omega
    · omega
    · rw [hmanifest] at h
      cases h
    · rw [hbundle] at h
      cases h
  · simp only [Bool.and_eq_true, decide_eq_true_eq, false_iff]
    rintro ⟨⟨-, hfits⟩, -⟩
    omega
  · rw [Bool.not_eq_true'] at hblocks
    simp [hblocks]
  · simp only [Bool.or_eq_true, decide_eq_true_eq, not_or, Bool.not_eq_true] at hsizes
    obtain ⟨⟨⟨⟨hshort, hlong⟩, hpayload⟩, hmanifest⟩, hbundle⟩ := hsizes
    simp only [Bool.not_eq_true', Bool.not_eq_false] at hblocks
    simp only [hmanifest, hbundle, hblocks, Bool.not_false, Bool.and_true, Bool.and_eq_true, decide_eq_true_eq]
    constructor
    · intro h
      exact ⟨⟨⟨⟨Nat.not_lt.1 hshort, Nat.not_lt.1 hlong⟩, Nat.not_lt.1 hpayload⟩, h⟩, Nat.not_lt.1 hcount⟩
    · rintro ⟨⟨-, h⟩, -⟩
      exact h

/-! ### The header -/

/-- What a header keeps. -/
structure StagingHeader where
  generation : UInt64
  transactionId : List UInt8
  plan : SoundBundlePlan
deriving DecidableEq

/-- The fields up to the checksum, as their bytes. -/
def stagingFields (bank : SoundBankId) (header : StagingHeader) : List (List UInt8) :=
  [[0x45, 0x49, 0x53, 0x48], leBytes 2 kStorageVersion, leBytes 2 kStagingHeaderBytes, [bank.code], List.replicate 7 0,
    leBytes 8 header.generation.toNat, leBytes 8 header.plan.baseGeneration.toNat, header.transactionId,
    leBytes 4 header.plan.manifestBytes.toNat, leBytes 4 header.plan.payloadBytes.toNat,
    leBytes 4 soundPayloadBlockSize, leBytes 2 (payloadBlockCountOf header.plan.payloadBytes), List.replicate 2 0,
    leBytes 4 header.plan.manifestCrc32.toNat, List.replicate 4 0, header.plan.baseBundleSha256,
    header.plan.manifestSha256, header.plan.bundleSha256, wordBytes header.plan.payloadBlockCrc32, List.replicate 20 0]

def encodeStagingHeader (checkpoint : ℕ → SoundStorageIoResult) (bank : SoundBankId) (header : StagingHeader) :
    Except SoundStoreResult (List UInt8) :=
  match checkpointedMemoryCrc32 checkpoint (stagingFields bank header).flatten with
  | .ok crc => .ok ((stagingFields bank header).flatten ++ leBytes 4 crc.toNat)
  | .error refused => .error refused

/-- The checks before the checksum is taken. -/
def stagingFrontOk (encoded : List UInt8) (expectedBank : SoundBankId) : Bool :=
  encoded.take 4 == [0x45, 0x49, 0x53, 0x48] && readLe encoded 4 2 == kStorageVersion &&
    readLe encoded 6 2 == kStagingHeaderBytes && encoded.getD 8 0 == expectedBank.code &&
    (slice encoded 9 7).all (· == 0) && readLe encoded 56 4 == soundPayloadBlockSize && readLe encoded 62 2 == 0 &&
    readLe encoded 68 4 == 0 && (slice encoded 680 20).all (· == 0)

def stagingAt (encoded : List UInt8) : StagingHeader where
  generation := UInt64.ofNat (readLe encoded 16 8)
  transactionId := slice encoded 32 16
  plan :=
    { baseGeneration := UInt64.ofNat (readLe encoded 24 8)
      baseBundleSha256 := slice encoded 72 32
      manifestBytes := UInt32.ofNat (readLe encoded 48 4)
      payloadBytes := UInt32.ofNat (readLe encoded 52 4)
      manifestCrc32 := UInt32.ofNat (readLe encoded 64 4)
      manifestSha256 := slice encoded 104 32
      bundleSha256 := slice encoded 136 32
      payloadBlockCrc32 := readWords encoded 168 soundPayloadBlockCount }

def decodeStagingHeader (checkpoint : ℕ → SoundStorageIoResult) (encoded : List UInt8) (expectedBank : SoundBankId) :
    Except SoundStoreResult StagingHeader :=
  if stagingFrontOk encoded expectedBank = false then .error .invalidStaging
  else
    match checkpointedMemoryCrc32 checkpoint (encoded.take kStagingHeaderCrcOffset) with
    | .error refused => .error refused
    | .ok observedCrc =>
      if readLe encoded kStagingHeaderCrcOffset 4 ≠ observedCrc.toNat then .error .invalidStaging
      else if (stagingAt encoded).generation = 0 || (stagingAt encoded).transactionId.all (· == 0) ||
          !planIsValid (stagingAt encoded).plan ||
          readLe encoded 60 2 != payloadBlockCountOf (stagingAt encoded).plan.payloadBytes then .error .invalidStaging
      else .ok (stagingAt encoded)

/-- What the store may have on its hands: a plan that is valid, and an identity that is set. -/
structure StagingHeader.Stored (header : StagingHeader) : Prop where
  generation : header.generation ≠ 0
  transaction : header.transactionId.length = 16
  set : header.transactionId.all (· == 0) = false
  sized : header.plan.Sized
  valid : planIsValid header.plan = true

variable {bank : SoundBankId} {header : StagingHeader}

theorem zeros_iff {offset width : ℕ} (h : offset + width ≤ encoded.length) :
    slice encoded offset width = List.replicate width 0 ↔ (slice encoded offset width).all (· == 0) = true := by
  rw [List.eq_replicate_iff, List.all_eq_true]
  simp only [beq_iff_eq]
  exact ⟨And.right, fun hall => ⟨length_slice h, hall⟩⟩

theorem payloadBlockCountOf_lt (payloadBytes : UInt32) (h : payloadBytes.toNat ≤ soundPayloadMaxSize) :
    payloadBlockCountOf payloadBytes < 256 ^ 2 := by
  rw [payloadBlockCountOf]
  split
  · decide
  · exact Nat.div_lt_of_lt_mul (lt_of_le_of_lt (Nat.sub_le_sub_right (Nat.add_le_add_right h _) 1) (by decide))

/-- The header is read exactly where its fields stand. -/
theorem stagingAt_iff (hlong : 700 ≤ encoded.length) (hpayload : header.plan.payloadBytes.toNat ≤ soundPayloadMaxSize) :
    (stagingFrontOk encoded bank = true ∧ readLe encoded 60 2 = payloadBlockCountOf header.plan.payloadBytes) ∧
        stagingAt encoded = header ↔
      (header.plan.Sized ∧ header.transactionId.length = 16) ∧
        encoded.take 700 = (stagingFields bank header).flatten := by
  have hsized : stagingAt encoded = header → header.plan.Sized ∧ header.transactionId.length = 16 := by
    rintro rfl
    exact ⟨⟨length_slice (by omega), length_slice (by omega), length_slice (by omega), by simp [stagingAt, readWords]⟩,
      length_slice (by omega)⟩
  have hfields (h : header.plan.Sized ∧ header.transactionId.length = 16) :
      encoded.take 700 = (stagingFields bank header).flatten ↔
        chop encoded 0 [4, 2, 2, 1, 7, 8, 8, 16, 4, 4, 4, 2, 2, 4, 4, 32, 32, 32, 512, 20] =
          stagingFields bank header := by
    refine take_eq_flatten_iff [4, 2, 2, 1, 7, 8, 8, 16, 4, 4, 4, 2, 2, 4, 4, 32, 32, 32, 512, 20] ?_ hlong
    simp only [stagingFields, List.map_cons, List.map_nil, length_leBytes, length_wordBytes, h.1.base, h.1.manifest,
      h.1.bundle, h.1.blocks, h.2, List.length_cons, List.length_nil, List.length_replicate]
    decide
  have hread (h : header.plan.Sized ∧ header.transactionId.length = 16) :
      chop encoded 0 [4, 2, 2, 1, 7, 8, 8, 16, 4, 4, 4, 2, 2, 4, 4, 32, 32, 32, 512, 20] = stagingFields bank header ↔
        (stagingFrontOk encoded bank = true ∧ readLe encoded 60 2 = payloadBlockCountOf header.plan.payloadBytes) ∧
          stagingAt encoded = header := by
    have hblocks : slice encoded 168 512 = wordBytes header.plan.payloadBlockCrc32 ↔
        readWords encoded 168 soundPayloadBlockCount = header.plan.payloadBlockCrc32 := by
      have hbound : 168 + 4 * soundPayloadBlockCount ≤ encoded.length := le_trans (by decide) hlong
      rw [← words_iff hbound]
      exact ⟨fun hslice => ⟨h.1.blocks, hslice⟩, And.right⟩
    have hzero2 : (List.replicate 2 0 : List UInt8) = leBytes 2 0 := by decide
    have hzero4 : (List.replicate 4 0 : List UInt8) = leBytes 4 0 := by decide
    rw [stagingFields, hzero2, hzero4]
    simp only [chop, Nat.zero_add, Nat.reduceAdd, List.cons.injEq, and_true]
    rw [slice_le_iff (by omega) (by decide), slice_le_iff (by omega) (by decide), slice_byte_iff (by omega),
      zeros_iff (by omega),
      slice_le_iff (by omega) header.generation.toNat_lt, slice_le_iff (by omega) header.plan.baseGeneration.toNat_lt,
      slice_le_iff (by omega) header.plan.manifestBytes.toNat_lt,
      slice_le_iff (by omega) header.plan.payloadBytes.toNat_lt, slice_le_iff (by omega) (by decide),
      slice_le_iff (by omega) (payloadBlockCountOf_lt _ hpayload), slice_le_iff (by omega) (by decide),
      slice_le_iff (by omega) header.plan.manifestCrc32.toNat_lt, slice_le_iff (by omega) (by decide),
      ← word_iff (by omega), ← word_iff (by omega), ← word_iff (by omega), ← longWord_iff (by omega),
      ← longWord_iff (by omega), hblocks, zeros_iff (by omega)]
    obtain ⟨generation, transaction, baseGeneration, base, manifestBytes, payloadBytes, manifestCrc, manifest, bundle,
      blocks⟩ := header
    simp only [stagingFrontOk, stagingAt, StagingHeader.mk.injEq, SoundBundlePlan.mk.injEq,
      Bool.and_eq_true, beq_iff_eq, slice, List.drop_zero]
    tauto
  constructor
  · intro h
    have hheader := hsized h.2
    exact ⟨hheader, (hfields hheader).2 ((hread hheader).2 h)⟩
  · rintro ⟨hheader, hbody⟩
    exact (hread hheader).1 ((hfields hheader).1 hbody)

theorem length_stagingFields (bank : SoundBankId) (h : header.Stored) :
    ((stagingFields bank header).flatten).length = 700 := by
  rw [stagingFields]
  simp only [List.flatten_cons, List.flatten_nil, List.length_append, List.length_cons, List.length_nil, length_leBytes,
    length_wordBytes, List.length_replicate, h.sized.base, h.sized.manifest, h.sized.bundle,
    h.sized.blocks, h.transaction]
  decide

theorem planIsValid_bytes {plan : SoundBundlePlan} (h : planIsValid plan = true) :
    plan.payloadBytes.toNat ≤ soundPayloadMaxSize := by
  rw [planIsValid_eq, soundBundlePlanShapeIsValid] at h
  simp only [Bool.and_eq_true, decide_eq_true_eq] at h
  exact h.1.1.1.1.1.2

theorem stored_iff : header.Stored ↔ (header.plan.Sized ∧ header.transactionId.length = 16) ∧
    header.generation ≠ 0 ∧ header.transactionId.all (· == 0) = false ∧ planIsValid header.plan = true :=
  ⟨fun h => ⟨⟨h.sized, h.transaction⟩, h.generation, h.set, h.valid⟩, fun h => ⟨h.2.1, h.1.2, h.2.2.1, h.1.1, h.2.2.2⟩⟩

/-- The conditions of the decoder, in its order. -/
theorem decodeStaging_iff (hlength : encoded.length = kStagingHeaderBytes) :
    decodeStagingHeader checkpoint encoded bank = .ok header ↔
      checkpointedMemoryCrc32 checkpoint (encoded.take 700) = .ok (UInt32.ofNat (readLe encoded 700 4)) ∧
      (header.generation ≠ 0 ∧ header.transactionId.all (· == 0) = false ∧ planIsValid header.plan = true) ∧
      (stagingFrontOk encoded bank = true ∧ readLe encoded 60 2 = payloadBlockCountOf header.plan.payloadBytes) ∧
        stagingAt encoded = header := by
  have hbound : 700 + 4 ≤ encoded.length := Nat.le_of_eq hlength.symm
  have hrefused : Except.error SoundStoreResult.invalidStaging ≠ Except.ok header := by
    intro h
    cases h
  rw [decodeStagingHeader, kStagingHeaderCrcOffset]
  by_cases hfront : stagingFrontOk encoded bank = false
  · rw [if_pos hfront]
    refine ⟨fun h => absurd h hrefused, ?_⟩
    rintro ⟨-, -, ⟨htrue, -⟩, -⟩
    rw [hfront] at htrue
    cases htrue
  rw [if_neg hfront]
  rw [Bool.not_eq_false] at hfront
  split
  next refused hcrc =>
    rw [hcrc]
    constructor
    · intro h
      cases h
    · rintro ⟨h, -⟩
      cases h
  next observedCrc hcrc =>
    have hsame : readLe encoded 700 4 = observedCrc.toNat ↔ observedCrc = UInt32.ofNat (readLe encoded 700 4) := by
      rw [← word_iff hbound]
      exact eq_comm
    rw [hcrc, Except.ok.injEq, ← hsame]
    split_ifs with hchecksum hfields
    · exact ⟨fun h => h.elim, fun h => absurd h.1 hchecksum⟩
    · refine ⟨fun h => h.elim, ?_⟩
      rintro ⟨-, ⟨hgeneration, hset, hvalid⟩, ⟨-, hcount⟩, rfl⟩
      simp [hgeneration, hset, hvalid, hcount] at hfields
    · rw [Except.ok.injEq]
      simp only [Bool.or_eq_true, decide_eq_true_eq, not_or, Bool.not_eq_true, Bool.not_eq_false',
        bne_eq_false_iff_eq] at hfields
      constructor
      · rintro rfl
        exact ⟨not_not.1 hchecksum, ⟨hfields.1.1.1, hfields.1.1.2, hfields.1.2⟩, ⟨hfront, hfields.2⟩, rfl⟩
      · rintro ⟨-, -, -, rfl⟩
        rfl

/-- 704 bytes are a header exactly when they are the encoding of that header, for this bank. -/
theorem staging_iff (hlength : encoded.length = kStagingHeaderBytes) :
    decodeStagingHeader checkpoint encoded bank = .ok header ↔
      header.Stored ∧ encodeStagingHeader checkpoint bank header = .ok encoded := by
  have hlong : 700 ≤ encoded.length := by rw [hlength]; decide
  have hbound : 700 + 4 ≤ encoded.length := Nat.le_of_eq hlength.symm
  have hencode (h : header.Stored) : encodeStagingHeader checkpoint bank header = .ok encoded ↔
      checkpointedMemoryCrc32 checkpoint (encoded.take 700) = .ok (UInt32.ofNat (readLe encoded 700 4)) ∧
        encoded.take 700 = (stagingFields bank header).flatten := by
    have hbody := length_stagingFields bank h
    have htail : (slice encoded 700 4) = encoded.drop 700 := by
      refine List.take_of_length_le ?_
      rw [List.length_drop, hlength]
      decide
    rw [encodeStagingHeader]
    constructor
    · intro hok
      split at hok
      next crc hcrc =>
        cases Except.ok.inj hok
        rw [List.take_left' hbody, hcrc, readLe, ← hbody, slice_append_right (Nat.le_refl _), Nat.sub_self, slice,
          List.drop_zero, List.take_of_length_le (Nat.le_of_eq (length_leBytes _ _)), leNat_leBytes crc.toNat_lt,
          UInt32.ofNat_toNat]
        exact ⟨rfl, rfl⟩
      next => cases hok
    · rintro ⟨hcrc, hfront⟩
      have hlt : readLe encoded 700 4 < 256 ^ 4 := readLe_lt hbound
      rw [hfront] at hcrc
      rw [hcrc]
      refine congrArg Except.ok ?_
      rw [word_toNat hlt, ← hfront, ← (slice_le_iff hbound hlt).2 rfl, htail, List.take_append_drop]
  rw [decodeStaging_iff hlength]
  constructor
  · rintro ⟨hcrc, hset, hread⟩
    obtain ⟨hsized, hbody⟩ := (stagingAt_iff hlong (planIsValid_bytes hset.2.2)).1 hread
    have hstored := stored_iff.2 ⟨hsized, hset⟩
    exact ⟨hstored, (hencode hstored).2 ⟨hcrc, hbody⟩⟩
  · rintro ⟨hstored, h⟩
    obtain ⟨hcrc, hbody⟩ := (hencode hstored).1 h
    exact ⟨hcrc, ⟨hstored.generation, hstored.set, hstored.valid⟩,
      (stagingAt_iff hlong (planIsValid_bytes hstored.valid)).2 ⟨⟨hstored.sized, hstored.transaction⟩, hbody⟩⟩

/-- A header of a manifest without payload. -/
def bareHeader : StagingHeader where
  generation := 1
  transactionId := List.replicate 16 7
  plan :=
    { manifestBytes := 32, manifestSha256 := List.replicate 32 7, bundleSha256 := List.replicate 32 7
      payloadBlockCrc32 := List.replicate soundPayloadBlockCount 0 }

theorem staging_iff_bare : ∃ encoded, decodeStagingHeader (fun _ => .ok) encoded .a = .ok bareHeader := by
  have hstored : bareHeader.Stored :=
    ⟨by decide, rfl, rfl, ⟨rfl, rfl, rfl, List.length_replicate⟩, by decide +kernel⟩
  have hlength : ((stagingFields .a bareHeader).flatten ++
      leBytes 4 (soundCrc32IsoHdlc (stagingFields .a bareHeader).flatten).toNat).length = kStagingHeaderBytes := by
    rw [List.length_append, length_leBytes, length_stagingFields .a hstored]
    rfl
  refine ⟨_, (staging_iff hlength).2 ⟨hstored, ?_⟩⟩
  rw [encodeStagingHeader, checkpointed_allowed fun _ => rfl]

end CodexKeyboard.SoundSync
