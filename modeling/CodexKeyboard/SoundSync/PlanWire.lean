import CodexKeyboard.SoundSync.Bundle
import CodexKeyboard.SoundSync.FrameWire

/-! Every plan has one encoding of 640 bytes, and the decoder accepts no other bytes. -/

namespace CodexKeyboard.SoundSync

open Schemes.Bytes

/-- The arrays of a plan are of their types' sizes. -/
structure SoundBundlePlan.Sized (plan : SoundBundlePlan) : Prop where
  base : plan.baseBundleSha256.length = 32
  manifest : plan.manifestSha256.length = 32
  bundle : plan.bundleSha256.length = 32
  blocks : plan.payloadBlockCrc32.length = soundPayloadBlockCount

/-! ### Rows of words -/

def wordBytes (words : List UInt32) : List UInt8 := words.flatMap fun word => leBytes 4 word.toNat

def readWords (encoded : List UInt8) (offset count : ℕ) : List UInt32 :=
  (List.range count).map fun index => UInt32.ofNat (readLe encoded (offset + index * 4) 4)

variable {encoded : List UInt8} {offset count : ℕ} {crc32 : List UInt8 → UInt32} {plan : SoundBundlePlan}

theorem length_wordBytes (words : List UInt32) : (wordBytes words).length = 4 * words.length := by
  induction words with
  | nil => rfl
  | cons word words ih =>
    rw [wordBytes, List.flatMap_cons, List.length_append, length_leBytes, ← wordBytes, ih, List.length_cons]
    omega

theorem readLe_slice {inner width : ℕ} (h : inner + width ≤ count) :
    readLe (slice encoded offset count) inner width = readLe encoded (offset + inner) width := by
  rw [readLe, readLe, slice, slice, slice, ← List.drop_drop, List.drop_take, List.take_take, Nat.min_eq_left (by omega)]

theorem readWords_slice : readWords (slice encoded offset (4 * count)) 0 count = readWords encoded offset count := by
  refine List.map_congr_left fun index hindex => ?_
  have hlt := List.mem_range.1 hindex
  rw [readLe_slice (by omega), Nat.zero_add]

theorem readWords_succ (encoded : List UInt8) (count : ℕ) :
    readWords encoded 0 (count + 1) = UInt32.ofNat (readLe encoded 0 4) :: readWords (encoded.drop 4) 0 count := by
  rw [readWords, List.range_succ_eq_map, List.map_cons, List.map_map]
  refine congrArg (_ :: ·) (List.map_congr_left fun index _ => ?_)
  rw [Function.comp_apply, readLe, readLe, slice_drop]
  congr 3
  omega

theorem readWords_wordBytes (words : List UInt32) : readWords (wordBytes words) 0 words.length = words := by
  induction words with
  | nil => rfl
  | cons word words ih =>
    have hlength : (leBytes 4 word.toNat).length = 4 := length_leBytes _ _
    rw [List.length_cons, readWords_succ, wordBytes, List.flatMap_cons, List.drop_left' hlength,
      ← wordBytes, ih, readLe, slice_append_here hlength, leNat_leBytes word.toNat_lt, UInt32.ofNat_toNat]

theorem wordBytes_readWords (h : encoded.length = 4 * count) : wordBytes (readWords encoded 0 count) = encoded := by
  induction count generalizing encoded with
  | zero => exact (List.eq_nil_of_length_eq_zero h).symm
  | succ count ih =>
    have hfirst : leBytes 4 (UInt32.ofNat (readLe encoded 0 4)).toNat = slice encoded 0 4 := by
      rw [word_toNat (readLe_lt (by omega))]
      exact ((slice_le_iff (by omega) (readLe_lt (by omega))).2 rfl).symm
    rw [readWords_succ, wordBytes, List.flatMap_cons, hfirst, ← wordBytes,
      ih (by rw [List.length_drop]; omega), slice, List.drop_zero, List.take_append_drop]

/-- A row of words is read where its bytes are. -/
theorem words_iff {words : List UInt32} (h : offset + 4 * count ≤ encoded.length) :
    words.length = count ∧ slice encoded offset (4 * count) = wordBytes words ↔
      readWords encoded offset count = words := by
  constructor
  · rintro ⟨rfl, hslice⟩
    rw [← readWords_slice, hslice, readWords_wordBytes]
  · rintro rfl
    refine ⟨by rw [readWords, List.length_map, List.length_range], ?_⟩
    rw [← readWords_slice, wordBytes_readWords (length_slice h)]

/-! ### The plan -/

/-- The fields of a plan on the wire, as their bytes. -/
def planFields (plan : SoundBundlePlan) : List (List UInt8) :=
  [[0x45, 0x49, 0x42, 0x50], leBytes 2 1, leBytes 2 speakerAssetsPlanWireBytes, leBytes 8 plan.baseGeneration.toNat,
    plan.baseBundleSha256, leBytes 4 plan.manifestBytes.toNat, leBytes 4 plan.payloadBytes.toNat,
    leBytes 4 plan.manifestCrc32.toNat, plan.manifestSha256, plan.bundleSha256, wordBytes plan.payloadBlockCrc32]

theorem planBody_eq (plan : SoundBundlePlan) : planBody plan = (planFields plan).flatten := by
  simp [planBody, planFields, wordBytes]

theorem length_planBody (h : plan.Sized) : (planBody plan).length = 636 := by
  rw [planBody_eq, planFields]
  simp only [List.flatten_cons, List.flatten_nil, List.length_append, List.length_cons, List.length_nil, length_leBytes,
    length_wordBytes, h.base, h.manifest, h.bundle, h.blocks]
  decide

/-- The plan that the decoder reads. -/
def planAt (encoded : List UInt8) : SoundBundlePlan where
  baseGeneration := UInt64.ofNat (readLe encoded 8 8)
  baseBundleSha256 := slice encoded 16 32
  manifestBytes := UInt32.ofNat (readLe encoded 48 4)
  payloadBytes := UInt32.ofNat (readLe encoded 52 4)
  manifestCrc32 := UInt32.ofNat (readLe encoded 56 4)
  manifestSha256 := slice encoded 60 32
  bundleSha256 := slice encoded 92 32
  payloadBlockCrc32 := readWords encoded 124 soundPayloadBlockCount

theorem word_iff {word : UInt32} (h : offset + 4 ≤ encoded.length) :
    UInt32.ofNat (readLe encoded offset 4) = word ↔ readLe encoded offset 4 = word.toNat := by
  rw [← UInt32.toNat_inj, word_toNat (readLe_lt h)]

theorem longWord_iff {word : UInt64} (h : offset + 8 ≤ encoded.length) :
    UInt64.ofNat (readLe encoded offset 8) = word ↔ readLe encoded offset 8 = word.toNat := by
  have hlt : readLe encoded offset 8 < 2 ^ 64 := readLe_lt h
  rw [← UInt64.toNat_inj, UInt64.toNat_ofNat_of_lt' hlt]

/-- The plan and its front are read exactly where they stand. -/
theorem planAt_iff (hlong : 636 ≤ encoded.length) :
    (encoded.take 4 = [0x45, 0x49, 0x42, 0x50] ∧ readLe encoded 4 2 = 1 ∧
        readLe encoded 6 2 = speakerAssetsPlanWireBytes) ∧ planAt encoded = plan ↔
      plan.Sized ∧ encoded.take 636 = planBody plan := by
  have hsized : planAt encoded = plan → plan.Sized := by
    rintro rfl
    exact ⟨length_slice (by omega), length_slice (by omega), length_slice (by omega), by simp [planAt, readWords]⟩
  have hfields (h : plan.Sized) : encoded.take 636 = planBody plan ↔
      chop encoded 0 [4, 2, 2, 8, 32, 4, 4, 4, 32, 32, 512] = planFields plan := by
    rw [planBody_eq]
    refine take_eq_flatten_iff [4, 2, 2, 8, 32, 4, 4, 4, 32, 32, 512] ?_ hlong
    simp only [planFields, List.map_cons, List.map_nil, length_leBytes, length_wordBytes, h.base, h.manifest, h.bundle,
      h.blocks, List.length_cons, List.length_nil]
    decide
  have hread (h : plan.Sized) : chop encoded 0 [4, 2, 2, 8, 32, 4, 4, 4, 32, 32, 512] = planFields plan ↔
      (encoded.take 4 = [0x45, 0x49, 0x42, 0x50] ∧ readLe encoded 4 2 = 1 ∧
        readLe encoded 6 2 = speakerAssetsPlanWireBytes) ∧ planAt encoded = plan := by
    have hblocks : slice encoded 124 512 = wordBytes plan.payloadBlockCrc32 ↔
        readWords encoded 124 soundPayloadBlockCount = plan.payloadBlockCrc32 := by
      rw [← words_iff hlong]
      exact ⟨fun hslice => ⟨h.blocks, hslice⟩, And.right⟩
    rw [planFields]
    simp only [chop, Nat.zero_add, Nat.reduceAdd, List.cons.injEq, and_true]
    rw [slice_le_iff (by omega) (by decide), slice_le_iff (by omega) (by decide),
      slice_le_iff (by omega) plan.baseGeneration.toNat_lt, slice_le_iff (by omega) plan.manifestBytes.toNat_lt,
      slice_le_iff (by omega) plan.payloadBytes.toNat_lt, slice_le_iff (by omega) plan.manifestCrc32.toNat_lt,
      ← word_iff (by omega), ← word_iff (by omega), ← word_iff (by omega), ← longWord_iff (by omega), hblocks]
    obtain ⟨baseGeneration, base, manifestBytes, payloadBytes, manifestCrc, manifest, bundle, blocks⟩ := plan
    simp only [planAt, SoundBundlePlan.mk.injEq, and_assoc, slice, List.drop_zero]
  constructor
  · intro h
    have hplan := hsized h.2
    exact ⟨hplan, (hfields hplan).2 ((hread hplan).2 h)⟩
  · rintro ⟨hplan, hbody⟩
    exact (hread hplan).1 ((hfields hplan).1 hbody)

theorem decodePlan_eq (encoded : List UInt8) : decodeSoundBundlePlanWire crc32 encoded =
    if encoded.length ≠ speakerAssetsPlanWireBytes then (.invalidLength, {})
    else if encoded.take 4 ≠ [0x45, 0x49, 0x42, 0x50] then (.invalidMagic, {})
    else if readLe encoded 4 2 ≠ 1 then (.unsupportedVersion, {})
    else if readLe encoded 6 2 ≠ speakerAssetsPlanWireBytes then (.invalidLength, {})
    else if (crc32 (encoded.take 636)).toNat ≠ readLe encoded 636 4 then (.crcMismatch, {})
    else if !soundBundlePlanShapeIsValid (planAt encoded) then (.invalidPlan, {})
    else (.ok, planAt encoded) := rfl

theorem encodePlan_iff : encodeSoundBundlePlanWire crc32 plan = (.ok, encoded) ↔
    soundBundlePlanShapeIsValid plan = true ∧ planBody plan ++ leBytes 4 (crc32 (planBody plan)).toNat = encoded := by
  rw [encodeSoundBundlePlanWire]
  split_ifs with hvalid
  · simp [hvalid]
  · simp [hvalid]

/-- 640 bytes are a plan exactly when they are the encoding of that plan. -/
theorem plan_iff : decodeSoundBundlePlanWire crc32 encoded = (.ok, plan) ↔
    plan.Sized ∧ encodeSoundBundlePlanWire crc32 plan = (.ok, encoded) := by
  rw [encodePlan_iff]
  constructor
  · intro h
    have hok : (decodeSoundBundlePlanWire crc32 encoded).1 = .ok := by rw [h]
    have hplan : (decodeSoundBundlePlanWire crc32 encoded).2 = plan := by rw [h]
    rw [decodePlan_eq] at hok hplan
    split_ifs at hok hplan with hlength hmagic hversion hsize hcrc hvalid
    have hlong : encoded.length = 640 := not_not.1 hlength
    obtain ⟨hsized, hbody⟩ := (planAt_iff (by omega)).1 ⟨⟨not_not.1 hmagic, not_not.1 hversion, not_not.1 hsize⟩, hplan⟩
    have hsame : planAt encoded = plan := hplan
    rw [hsame] at hvalid
    refine ⟨hsized, by simpa using hvalid, ?_⟩
    have hchecksum : slice encoded 636 4 = leBytes 4 (crc32 (encoded.take 636)).toNat :=
      (slice_le_iff (by omega) (UInt32.toNat_lt _)).2 (not_not.1 hcrc).symm
    have htail : (encoded.drop 636).take 4 = encoded.drop 636 :=
      List.take_of_length_le (by rw [List.length_drop]; omega)
    rw [← hbody, ← hchecksum, slice, htail, List.take_append_drop]
  · rintro ⟨hsized, hvalid, rfl⟩
    have hbody := length_planBody hsized
    have hcrc : (leBytes 4 (crc32 (planBody plan)).toNat).length = 4 := length_leBytes _ _
    have htake : (planBody plan ++ leBytes 4 (crc32 (planBody plan)).toNat).take 636 = planBody plan :=
      List.take_left' hbody
    have hlength : (planBody plan ++ leBytes 4 (crc32 (planBody plan)).toNat).length = speakerAssetsPlanWireBytes := by
      rw [List.length_append, hbody, hcrc]
      rfl
    have hlong : 636 ≤ (planBody plan ++ leBytes 4 (crc32 (planBody plan)).toNat).length := by
      rw [hlength]
      decide
    obtain ⟨⟨hmagic, hversion, hsize⟩, hplan⟩ := (planAt_iff hlong).2 ⟨hsized, htake⟩
    have hchecksum : readLe (planBody plan ++ leBytes 4 (crc32 (planBody plan)).toNat) 636 4 =
        (crc32 (planBody plan)).toNat := by
      rw [readLe, ← hbody, slice_append_right (Nat.le_refl _), Nat.sub_self, slice, List.drop_zero,
        List.take_of_length_le (Nat.le_of_eq hcrc), leNat_leBytes (UInt32.toNat_lt _)]
    rw [decodePlan_eq, if_neg (not_not.2 hlength), if_neg (not_not.2 hmagic), if_neg (not_not.2 hversion),
      if_neg (not_not.2 hsize), htake, if_neg (not_not.2 hchecksum.symm), hplan, if_neg (by simp [hvalid])]

end CodexKeyboard.SoundSync
