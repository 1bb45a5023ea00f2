import CodexKeyboard.Audio.Frames
import CodexKeyboard.Device.SoundReader

/-! What the Host encodes for the speaker, the keyboard plays: every frame is taken, and each sample
    is the one the Host's own decoder would give. -/

namespace CodexKeyboard.Audio

open Schemes.Chunks Schemes.Bytes Device Device.SoundAssetStreamDecoder

/-! ### The same arithmetic on both sides -/

theorem readLe16_eq {data : List UInt8} {offset : Nat} (h : offset + 2 ≤ data.length) :
    readLe16 data offset = readUint 2 data offset := by
  rw [readUint, ← getLoop_eq h]
  simp [readLe16, byteOf, getLoop, List.range_succ]

theorem readLe32_eq {data : List UInt8} {offset : Nat} (h : offset + 4 ≤ data.length) :
    readLe32 data offset = readUint 4 data offset := by
  rw [readUint, ← getLoop_eq h]
  simp [readLe32, byteOf, getLoop, List.range_succ]

/-- The sign bit of two bytes. -/
theorem sign_bit {raw : Nat} (h : raw < 2 ^ 16) : raw &&& 0x8000 = 0 ↔ raw < 2 ^ 15 := by
  have hand : raw &&& 2 ^ 15 = (raw.testBit 15).toNat * 2 ^ 15 := Nat.and_two_pow raw 15
  rw [show 0x8000 = 2 ^ 15 by rfl, hand, Nat.testBit_eq_decide_div_mod_eq]
  by_cases hset : raw / 2 ^ 15 % 2 = 1
  · simp only [hset, decide_true, Bool.toNat_true]
    omega
  · simp only [hset, decide_false, Bool.toNat_false]
    omega

theorem readSignedLe16_eq {data : List UInt8} {offset : Nat} (h : offset + 2 ≤ data.length) :
    readSignedLe16 data offset = i16FromLe (slice data offset 2) := by
  have hlt := leNat_lt (slice data offset 2)
  rw [length_slice h] at hlt
  simp only [readSignedLe16, i16FromLe, readLe16_eq h, readUint, sign_bit hlt]
  rfl

theorem stdClamp_eq {value low high : Int} (h : low ≤ high) :
    stdClamp value low high = clamp low high value := by
  unfold stdClamp clamp
  split
  · omega
  · split <;> omega

/-- `decode_nibble` is `decode_ima_sample`. -/
theorem decodeNibble_eq (code : Nat) (predictor stepIndex : Int) :
    decodeNibble code predictor stepIndex = decodeImaSample code predictor stepIndex := by
  have htable : kStepTable = imaStepTable := rfl
  have hindex : kIndexDelta = imaIndexTable := rfl
  simp only [decodeNibble, decodeImaSample, nextStepIndex, htable, hindex]
  rw [stdClamp_eq (by decide), stdClamp_eq (by decide)]
  refine Prod.ext ?_ rfl
  simp only
  congr 1
  split <;> split <;> split <;> split <;> omega

/-- The loop of the speaker reads the codes the Host's loop reads. -/
theorem decodeRest_eq {frame payload : List UInt8}
    (hpayload : ∀ k < payload.length,
      byteOf frame (kSoundAssetFrameHeaderBytes + k) = byteAt payload k)
    (remaining sampleIndex : Nat) (predictor stepIndex : Int) (hpos : 1 ≤ sampleIndex)
    (hinside : sampleIndex - 1 + remaining ≤ 2 * payload.length) :
    decodeRest frame remaining sampleIndex predictor stepIndex =
      decodeImaRest payload remaining sampleIndex predictor stepIndex := by
  induction remaining generalizing sampleIndex predictor stepIndex with
  | zero => rfl
  | succ remaining ih =>
    have hbyte := hpayload ((sampleIndex - 1) / 2) (by omega)
    have hparity : (sampleIndex - 1) % 2 = 0 ↔ sampleIndex % 2 ≠ 0 := by omega
    simp only [decodeRest, decodeImaRest, hbyte, decodeNibble_eq, hparity]
    rw [ih _ _ _ (by omega) (by omega)]

/-! ### The decoder at work -/

/-- A source that hands out the bytes of `eiad`. -/
def Serves (eiad : List UInt8) : StreamSource → Prop
  | .embedded encoded => encoded = eiad
  | .streaming read => ∀ offset length, offset + length ≤ eiad.length →
      read offset length = (.ok, slice eiad offset length)

/-- The decoder has played what is before `front`; `samples` are behind it. -/
structure At (d : SoundAssetStreamDecoder) (eiad front : List UInt8) (samples : List Int) : Prop where
  source : ∃ source, d.source = some source ∧ Serves eiad source
  ready : d.ready = true
  encoded : d.encodedBytes = eiad.length
  total : d.decodedSamples + samples.length = d.totalSamples
  frames : d.nextFrameIndex + (chunks deviceEiadFrameSamples samples).length = d.frameCount
  few : d.frameCount < 2 ^ 16
  offset : d.nextEncodedOffset = front.length
  buffer : d.encodedFrame.length = kSoundAssetMaximumEncodedFrameBytes
  place : eiad = front ++ imaFrames deviceEiadFrameSamples false samples

theorem At.read {d : SoundAssetStreamDecoder} {eiad front : List UInt8} {samples : List Int}
    (h : At d eiad front samples) {offset length : Nat} (hinside : offset + length ≤ eiad.length) :
    d.readEncoded offset length = (.ok, slice eiad offset length) := by
  obtain ⟨source, hsource, hserves⟩ := h.source
  rw [readEncoded, if_neg, hsource]
  · cases source with
    | embedded encoded =>
      obtain rfl := hserves
      rfl
    | streaming read => exact hserves offset length hinside
  · rw [h.ready, h.encoded]
    rintro (hready | hoffset | hlength)
    · simp at hready
    · omega
    · omega

/-- A frame of the speaker, decoded by the Host: from its own predictor, step index and codes. -/
def hostSamples (frame : List UInt8) : List Int :=
  decodeImaFrame (i16FromLe (slice frame 2 2)) (byteAt frame 4)
    (frame.drop deviceEiadFrameHeaderBytes) (readU16 frame 0)

theorem splice_front (block payload : List UInt8) :
    splice block 0 payload = payload ++ block.drop payload.length := by
  simp [splice]

theorem splice_behind {front block : List UInt8} {offset : Nat} (payload : List UInt8)
    (h : front.length = offset) :
    splice (front ++ block) offset payload = front ++ payload ++ block.drop payload.length := by
  rw [splice_append_right (Nat.le_of_eq h), h, Nat.sub_self, splice_front, List.append_assoc]

/-- A whole frame in the buffer is played as the Host decodes it. -/
theorem decodeFrame_ok {d : SoundAssetStreamDecoder} {frame back : List UInt8} {samples : Nat}
    (hshape : FrameShape false samples frame) (hbuffer : d.encodedFrame = frame ++ back)
    (hindex : (d.nextFrameIndex + 1) % 2 ^ 16 = d.nextFrameIndex + 1)
    (hfinal : d.nextFrameIndex + 1 = d.frameCount →
      d.nextEncodedOffset + frame.length = d.encodedBytes ∧
        d.decodedSamples + samples = d.totalSamples)
    (hmore : d.nextFrameIndex + 1 ≠ d.frameCount →
      d.nextEncodedOffset + frame.length < d.encodedBytes ∧
        d.decodedSamples + samples < d.totalSamples) :
    d.decodeFrame samples frame.length = (.ok, hostSamples frame, { d with
      nextEncodedOffset := d.nextEncodedOffset + frame.length
      decodedSamples := d.decodedSamples + samples
      nextFrameIndex := d.nextFrameIndex + 1 }) := by
  have hlength : frame.length = 6 + samples / 2 := hshape.length
  have hbyte : ∀ k < frame.length, byteOf (frame ++ back) k = byteAt frame k := by
    intro k hk
    rw [byteOf, byteAt, List.getD_append _ _ _ _ hk]
  have hslice : slice (frame ++ back) 2 2 = slice frame 2 2 := slice_append_left (by omega)
  have hpredictor : readSignedLe16 (frame ++ back) 2 = i16FromLe (slice frame 2 2) := by
    rw [readSignedLe16_eq (by rw [List.length_append]; omega), hslice]
  have hpayload : ∀ k < (frame.drop deviceEiadFrameHeaderBytes).length,
      byteOf (frame ++ back) (kSoundAssetFrameHeaderBytes + k) =
        byteAt (frame.drop deviceEiadFrameHeaderBytes) k := by
    intro k hk
    rw [List.length_drop] at hk
    simp only [deviceEiadFrameHeaderBytes] at hk ⊢
    rw [kSoundAssetFrameHeaderBytes, hbyte _ (by omega), byteAt, byteAt, List.getD_eq_getElem?_getD,
      List.getD_eq_getElem?_getD, List.getElem?_drop]
  have hrest := decodeRest_eq hpayload (samples - 1) 1 (i16FromLe (slice frame 2 2))
    (byteAt frame 4) (Nat.le_refl 1) (by
      rw [List.length_drop, deviceEiadFrameHeaderBytes]
      omega)
  rw [decodeFrame, hbuffer]
  dsimp only
  rw [if_neg, hindex, if_neg, hpredictor, hbyte 4 (by omega), hrest, hostSamples, decodeImaFrame,
    hshape.count]
  · rintro (⟨hlast, hbad⟩ | ⟨hlast, hbad⟩)
    · have hok := hfinal hlast
      omega
    · have hok := hmore hlast
      omega
  · rintro ⟨heven, -, hbits⟩
    rw [hbyte _ (by omega)] at hbits
    exact hbits (hshape.tail heven)

theorem imaFrames_pos {samples : List Int} (hne : samples ≠ []) :
    0 < (imaFrames deviceEiadFrameSamples false samples).length := by
  obtain ⟨frame, hframe, hframes, -⟩ :=
    first_frame false [] (show 0 < deviceEiadFrameSamples by decide) (by decide) hne
  simp only [List.nil_append] at hframes
  rw [hframes, List.length_append, hframe]
  simp only [frameHeaderBytes, Bool.false_eq_true, if_false]
  omega

theorem smaller_of (remaining full : Nat) :
    (if remaining < full then remaining else full) = min full remaining := by
  split <;> omega

/-- `decode_next` at a frame of the container: the header, then the payload, then the samples. -/
theorem decodeNext_frame {d : SoundAssetStreamDecoder} {eiad front frame back : List UInt8}
    {samples capacity : Nat} (hsource : d.source.isNone = false) (hready : d.ready = true)
    (hread : ∀ {offset length}, offset + length ≤ eiad.length →
      d.readEncoded offset length = (.ok, slice eiad offset length))
    (heiad : eiad = front ++ frame ++ back) (hshape : FrameShape false samples frame)
    (hpos : samples ≠ 0) (hencoded : d.encodedBytes = eiad.length)
    (hoffset : d.nextEncodedOffset = front.length)
    (hbuffer : d.encodedFrame.length = kSoundAssetMaximumEncodedFrameBytes)
    (hcapacity : kSoundAssetFrameSamples ≤ capacity)
    (hcount : samples = min kSoundAssetFrameSamples (d.totalSamples - d.decodedSamples))
    (hindex : d.nextFrameIndex < d.frameCount) (hfew : d.frameCount < 2 ^ 16)
    (hmoreSamples : d.decodedSamples < d.totalSamples)
    (hfinal : d.nextFrameIndex + 1 = d.frameCount →
      back = [] ∧ d.decodedSamples + samples = d.totalSamples)
    (hmore : d.nextFrameIndex + 1 ≠ d.frameCount →
      back ≠ [] ∧ d.decodedSamples + samples < d.totalSamples) :
    d.decodeNext capacity = (.ok, hostSamples frame, { d with
      encodedFrame := frame ++ (d.encodedFrame.drop 6).drop (frame.drop 6).length
      nextEncodedOffset := d.nextEncodedOffset + frame.length
      decodedSamples := d.decodedSamples + samples
      nextFrameIndex := d.nextFrameIndex + 1 }) := by
  have hlength : frame.length = 6 + samples / 2 := hshape.length
  have hsize : eiad.length = front.length + frame.length + back.length := by
    rw [heiad, List.length_append, List.length_append]
  have hsamples : samples ≤ 480 := hcount ▸ Nat.min_le_left _ _
  have hexpected := (smaller_of _ _).trans hcount.symm
  have hhead : slice eiad d.nextEncodedOffset 6 = frame.take 6 := by
    have hmid : slice (front ++ frame ++ back) (front.length + 0) 6 = slice frame 0 6 :=
      slice_append_mid (by omega)
    rw [hoffset, heiad, ← Nat.add_zero front.length, hmid, slice, List.drop_zero]
  have hbody : slice eiad (d.nextEncodedOffset + 6) (samples / 2) = frame.drop 6 := by
    rw [hoffset, heiad, slice_append_mid (by omega), slice, List.take_of_length_le]
    rw [List.length_drop]
    omega
  have hfirst : splice d.encodedFrame 0 (frame.take 6) = frame.take 6 ++ d.encodedFrame.drop 6 := by
    rw [splice_front, List.length_take, Nat.min_eq_left (by omega)]
  have htake : (frame.take 6).length = 6 := by
    rw [List.length_take]
    omega
  have hread16 : readLe16 (frame.take 6 ++ d.encodedFrame.drop 6) 0 = samples := by
    rw [readLe16_eq (by rw [List.length_append, htake]; omega), readUint,
      slice_append_left (by omega), ← hshape.count, readU16, readUint, slice, slice, List.drop_zero,
      List.take_take]
    rfl
  have hheadByte : ∀ k < 6, byteOf (frame.take 6 ++ d.encodedFrame.drop 6) k = byteAt frame k := by
    intro k hk
    rw [byteOf, byteAt, List.getD_append _ _ _ _ (by omega), List.getD_eq_getElem?_getD,
      List.getD_eq_getElem?_getD, List.getElem?_take_of_lt hk]
  have hreadBuffer : ∀ buffer {offset length}, offset + length ≤ eiad.length →
      ({ d with encodedFrame := buffer } : SoundAssetStreamDecoder).readEncoded offset length =
        (.ok, slice eiad offset length) := fun buffer _ _ h => hread h
  have hrange : (d.nextFrameIndex + 1) % 2 ^ 16 = d.nextFrameIndex + 1 :=
    Nat.mod_eq_of_lt (by omega)
  have hlast : d.nextFrameIndex + 1 = d.frameCount →
      d.nextEncodedOffset + frame.length = d.encodedBytes ∧
        d.decodedSamples + samples = d.totalSamples := by
    intro h
    obtain ⟨hnone, htotal⟩ := hfinal h
    rw [hnone, List.length_nil] at hsize
    omega
  have hinner : d.nextFrameIndex + 1 ≠ d.frameCount →
      d.nextEncodedOffset + frame.length < d.encodedBytes ∧
        d.decodedSamples + samples < d.totalSamples := by
    intro h
    obtain ⟨hsome, htotal⟩ := hmore h
    have hback := List.length_pos_iff.2 hsome
    omega
  have hplayed : ∀ buffer, ({ d with encodedFrame := frame ++ buffer } :
      SoundAssetStreamDecoder).decodeFrame samples (6 + samples / 2) = (.ok, hostSamples frame, { d with
        encodedFrame := frame ++ buffer
        nextEncodedOffset := d.nextEncodedOffset + frame.length
        decodedSamples := d.decodedSamples + samples
        nextFrameIndex := d.nextFrameIndex + 1 }) := by
    intro buffer
    rw [← hlength]
    exact decodeFrame_ok hshape rfl hrange hlast hinner
  rw [SoundAssetStreamDecoder.decodeNext, if_neg (by simp [hready, hsource]),
    if_neg (Nat.not_le.2 hindex), if_neg (Nat.not_lt.2 hcapacity), if_neg (by
      rw [kSoundAssetFrameHeaderBytes]
      omega)]
  have hheader : d.readEncoded d.nextEncodedOffset 6 = (.ok, frame.take 6) := by
    rw [hread (by omega), hhead]
  simp only [kSoundAssetFrameHeaderBytes, hheader, hfirst, hread16, hexpected,
    ne_eq, not_true_eq_false, if_false]
  rw [if_neg (by
    rw [hheadByte 4 (by omega), hheadByte 5 (by omega), hshape.reserved, List.length_append, htake,
      List.length_drop, hbuffer]
    have hstep := hshape.step
    simp only [kSoundAssetFrameSamples, kImaStepCount, kSoundAssetMaximumFramePayloadBytes,
      kSoundAssetMaximumEncodedFrameBytes, kSoundAssetFrameHeaderBytes, not_true_eq_false,
      false_or]
    omega)]
  by_cases hempty : samples / 2 = 0
  · have hall : frame.take 6 = frame := List.take_of_length_le (by omega)
    have hnone : (frame.drop 6).length = 0 := by
      rw [List.length_drop]
      omega
    rw [if_neg (not_not.2 hempty), hall, hnone, List.drop_zero]
    exact hplayed _
  · rw [if_pos hempty, hreadBuffer _ (by omega), hbody]
    simp only [splice_behind _ htake, List.take_append_drop, not_true_eq_false, if_false]
    exact hplayed _

theorem chunks_length_eq_zero {samples : List Int} :
    (chunks deviceEiadFrameSamples samples).length = 0 ↔ samples = [] := by
  have hpos : 0 < deviceEiadFrameSamples := by decide
  rcases eq_or_ne samples [] with rfl | hne
  · simp [chunks_nil hpos]
  · simp [chunks_cons hpos hne, hne]

/-- One call of `decode_next` plays the next frame. -/
theorem At.decodeNext {d : SoundAssetStreamDecoder} {eiad front : List UInt8} {samples : List Int}
    (h : At d eiad front samples) (hne : samples ≠ []) {capacity : Nat}
    (hcapacity : kSoundAssetFrameSamples ≤ capacity) :
    ∃ d', d.decodeNext capacity =
        (.ok, hostSamples (imaFrame false (samples.take deviceEiadFrameSamples)), d') ∧
      At d' eiad (front ++ imaFrame false (samples.take deviceEiadFrameSamples))
        (samples.drop deviceEiadFrameSamples) := by
  have hpos : 0 < deviceEiadFrameSamples := by decide
  have hsamples : 0 < samples.length := List.length_pos_iff.2 hne
  have htake : (samples.take deviceEiadFrameSamples).length = min deviceEiadFrameSamples samples.length :=
    List.length_take
  have hdrop : (samples.drop deviceEiadFrameSamples).length =
      samples.length - deviceEiadFrameSamples := List.length_drop
  have htakeNe : samples.take deviceEiadFrameSamples ≠ [] := by
    rw [← List.length_pos_iff, htake]
    exact Nat.lt_min.2 ⟨hpos, hsamples⟩
  have hshape := imaFrame_shape false htakeNe
    (Nat.lt_of_le_of_lt (List.length_take_le _ _) (show deviceEiadFrameSamples < 2 ^ 16 by decide))
  have hcount : (chunks deviceEiadFrameSamples samples).length =
      (chunks deviceEiadFrameSamples (samples.drop deviceEiadFrameSamples)).length + 1 := by
    rw [chunks_cons hpos hne, List.length_cons]
  have hplace := h.place
  rw [imaFrames_cons false hpos hne, ← List.append_assoc] at hplace
  have htotal := h.total
  have hframes := h.frames
  have hlast : d.nextFrameIndex + 1 = d.frameCount ↔ samples.drop deviceEiadFrameSamples = [] := by
    rw [← chunks_length_eq_zero]
    omega
  have hsource : d.source.isNone = false := by
    obtain ⟨source, hsource, -⟩ := h.source
    simp [hsource]
  have hfinal : d.nextFrameIndex + 1 = d.frameCount →
      imaFrames deviceEiadFrameSamples false (samples.drop deviceEiadFrameSamples) = [] ∧
        d.decodedSamples + (samples.take deviceEiadFrameSamples).length = d.totalSamples := by
    intro hfinal
    have hnil := hlast.1 hfinal
    rw [hnil, List.length_nil] at hdrop
    refine ⟨by rw [hnil, imaFrames, chunks_nil hpos]; rfl, ?_⟩
    omega
  have hmore : d.nextFrameIndex + 1 ≠ d.frameCount →
      imaFrames deviceEiadFrameSamples false (samples.drop deviceEiadFrameSamples) ≠ [] ∧
        d.decodedSamples + (samples.take deviceEiadFrameSamples).length < d.totalSamples := by
    intro hmore
    have hsome : samples.drop deviceEiadFrameSamples ≠ [] := fun hnil => hmore (hlast.2 hnil)
    have hlong := List.length_pos_iff.2 hsome
    refine ⟨List.length_pos_iff.1 (imaFrames_pos hsome), ?_⟩
    omega
  have hcountSamples : (samples.take deviceEiadFrameSamples).length =
      min kSoundAssetFrameSamples (d.totalSamples - d.decodedSamples) := by
    rw [htake, ← htotal, Nat.add_sub_cancel_left]
    rfl
  have hnext := decodeNext_frame hsource h.ready h.read hplace hshape
    (Nat.pos_iff_ne_zero.1 (List.length_pos_iff.2 htakeNe)) h.encoded h.offset h.buffer hcapacity
    hcountSamples (by omega) h.few (by omega) hfinal hmore
  refine ⟨_, hnext, h.source, h.ready, h.encoded, ?_, ?_, h.few, ?_, ?_, hplace⟩
  · simp only
    omega
  · simp only
    omega
  · simp only [List.length_append, h.offset]
  · have hbuffer := h.buffer
    have hlength : (imaFrame false (samples.take deviceEiadFrameSamples)).length =
        6 + (samples.take deviceEiadFrameSamples).length / 2 := hshape.length
    have hfull : deviceEiadFrameSamples = 480 := rfl
    simp only [List.length_append, List.length_drop, hlength, kSoundAssetMaximumEncodedFrameBytes,
      kSoundAssetFrameHeaderBytes, kSoundAssetMaximumFramePayloadBytes] at hbuffer ⊢
    omega

/-- Behind the last frame the decoder is at its end. -/
theorem At.decodeEnd {d : SoundAssetStreamDecoder} {eiad front : List UInt8}
    (h : At d eiad front []) (capacity : Nat) : d.decodeNext capacity = (.streamEnd, [], d) := by
  obtain ⟨source, hsource, -⟩ := h.source
  have hframes := h.frames
  have htotal := h.total
  have hplace := h.place
  have hnone : chunks deviceEiadFrameSamples ([] : List Int) = [] := chunks_nil (by decide)
  rw [hnone, List.length_nil, Nat.add_zero] at hframes
  rw [List.length_nil, Nat.add_zero] at htotal
  rw [imaFrames, hnone, List.flatMap_nil, List.append_nil] at hplace
  rw [SoundAssetStreamDecoder.decodeNext, if_neg (by simp [h.ready, hsource]),
    if_pos (Nat.le_of_eq hframes.symm),
    if_pos ⟨hframes, htotal, by rw [h.offset, h.encoded, hplace]⟩]

/-- The decoder plays every frame, and then it is at its end. -/
theorem At.decodeUntilEnd {eiad : List UInt8} {capacity : Nat}
    (hcapacity : kSoundAssetFrameSamples ≤ capacity) (samples : List Int)
    {d : SoundAssetStreamDecoder} {front : List UInt8} (h : At d eiad front samples) :
    decodeUntilEnd capacity ((chunks deviceEiadFrameSamples samples).length + 1) d =
      (((chunks deviceEiadFrameSamples samples).map (imaFrame false)).flatMap hostSamples,
        .streamEnd) := by
  have hpos : 0 < deviceEiadFrameSamples := by decide
  induction samples using chunks_induction hpos generalizing d front with
  | nil =>
    rw [chunks_nil hpos]
    simp [SoundAssetStreamDecoder.decodeUntilEnd, h.decodeEnd]
  | cons samples hne ih =>
    obtain ⟨d', hnext, hat⟩ := h.decodeNext hne hcapacity
    rw [chunks_cons hpos hne, List.length_cons]
    rw [SoundAssetStreamDecoder.decodeUntilEnd, hnext]
    simp only [ih hat, List.map_cons, List.flatMap_cons]

/-! ### Opening the container -/

theorem slice_take {bytes : List UInt8} {n offset length : Nat} (h : offset + length ≤ n) :
    slice (bytes.take n) offset length = slice bytes offset length := by
  rw [slice, slice, List.drop_take, List.take_take, Nat.min_eq_left (by omega)]

/-- Two resources with the same header are the same to `open_embedded`. -/
theorem readUint_header {encoded eiad : List UInt8} {width offset : Nat}
    (h : encoded.take kEiadHeaderBytes = eiad.take kEiadHeaderBytes)
    (hinside : offset + width ≤ kEiadHeaderBytes) :
    readUint width encoded offset = readUint width eiad offset := by
  rw [readUint, readUint, ← slice_take hinside, h, slice_take hinside]

theorem length_imaFrames_le (samples : List Int) :
    (imaFrames deviceEiadFrameSamples false samples).length ≤
      246 * (chunks deviceEiadFrameSamples samples).length := by
  have hpos : 0 < deviceEiadFrameSamples := by decide
  induction samples using chunks_induction hpos with
  | nil => simp [imaFrames, chunks_nil hpos]
  | cons samples hne ih =>
    obtain ⟨frame, hframe, hframes, -⟩ := first_frame false [] hpos (by decide) hne
    have hle : (samples.take deviceEiadFrameSamples).length ≤ 480 := List.length_take_le _ _
    simp only [List.nil_append] at hframes
    rw [hframes, List.length_append, hframe, chunks_cons hpos hne, List.length_cons]
    simp only [frameHeaderBytes, Bool.false_eq_true, if_false]
    omega

theorem deviceEiad_size {samples : List Int}
    (hmax : samples.length ≤ ttsSampleRate * maxTtsSeconds) :
    (deviceEiad samples).length ≤ kEmbeddedSoundAssetMaximumBytes := by
  have hframes := length_imaFrames_le samples
  have hcount := length_chunks deviceEiadFrameSamples samples
  simp only [ttsSampleRate, maxTtsSeconds, deviceEiadFrameSamples] at hmax hcount hframes ⊢
  rw [deviceEiad, List.length_append, deviceEiadHeader_length]
  simp only [deviceEiadHeaderBytes, kEmbeddedSoundAssetMaximumBytes, deviceEiadFrameSamples]
  omega

theorem openEmbedded_ok {samples : List Int} (hpos : 0 < samples.length)
    (hmax : samples.length ≤ ttsSampleRate * maxTtsSeconds) {encoded : List UInt8}
    (h : encoded.take kEiadHeaderBytes = (deviceEiad samples).take kEiadHeaderBytes) :
    openEmbedded encoded (deviceEiad samples).length = (.ok, {
      source := some (.embedded encoded)
      encodedBytes := (deviceEiad samples).length
      totalSamples := samples.length
      frameCount := (chunks deviceEiadFrameSamples samples).length
      nextEncodedOffset := kEiadHeaderBytes
      ready := true }) := by
  have hheader := deviceEiad_header hmax
  have hsize := deviceEiad_size hmax
  have hcount := length_chunks deviceEiadFrameSamples samples
  have hwhole : kEiadHeaderBytes ≤ (deviceEiad samples).length := hheader.whole
  have hencoded : kEiadHeaderBytes ≤ encoded.length := by
    have hlength := congrArg List.length h
    rw [List.length_take, List.length_take, Nat.min_eq_left hwhole] at hlength
    omega
  have r16 : ∀ {offset}, offset + 2 ≤ kEiadHeaderBytes →
      readLe16 encoded offset = readUint 2 (deviceEiad samples) offset :=
    fun ho => (readLe16_eq (Nat.le_trans ho hencoded)).trans (readUint_header h ho)
  have r32 : ∀ {offset}, offset + 4 ≤ kEiadHeaderBytes →
      readLe32 encoded offset = readUint 4 (deviceEiad samples) offset :=
    fun ho => (readLe32_eq (Nat.le_trans ho hencoded)).trans (readUint_header h ho)
  have rbyte : ∀ {offset}, offset < kEiadHeaderBytes →
      byteOf encoded offset = byteAt (deviceEiad samples) offset := by
    intro offset ho
    rw [byteOf, byteAt, List.getD_eq_getElem?_getD, List.getD_eq_getElem?_getD,
      ← List.getElem?_take_of_lt ho, h, List.getElem?_take_of_lt ho]
  have rmagic : encoded.take 4 = kEiadMagic := by
    have htake := congrArg (List.take 4) h
    rw [List.take_take, List.take_take] at htake
    exact htake.trans hheader.magic
  generalize hframes : (chunks deviceEiadFrameSamples samples).length = frames at *
  simp only [kEiadHeaderBytes] at hwhole
  simp only [deviceEiadFrameSamples] at hcount
  simp only [ttsSampleRate, maxTtsSeconds] at hmax
  simp only [kEmbeddedSoundAssetMaximumBytes] at hsize
  rw [openEmbedded, if_neg]
  · simp only [r16 (show 10 + 2 ≤ kEiadHeaderBytes by decide),
      r16 (show 12 + 2 ≤ kEiadHeaderBytes by decide), r16 (show 18 + 2 ≤ kEiadHeaderBytes by decide),
      r32 (show 6 + 4 ≤ kEiadHeaderBytes by decide), r32 (show 14 + 4 ≤ kEiadHeaderBytes by decide),
      rbyte (show 4 < kEiadHeaderBytes by decide), rbyte (show 5 < kEiadHeaderBytes by decide),
      rmagic, hheader.version, hheader.channels, hheader.rate, hheader.frameSamples,
      hheader.frames, hheader.samples, hheader.headerBytes]
    rw [if_neg]
    simp only [kEiadVersion, kEiadChannels, kSoundAssetSampleRate, ttsSampleRate,
      kSoundAssetFrameSamples, deviceEiadFrameSamples, kEmbeddedSoundAssetMaximumSamples,
      deviceEiadHeaderBytes, kEiadHeaderBytes, ne_eq, not_true_eq_false, false_or, or_false]
    omega
  · simp only [kEiadHeaderBytes, kEmbeddedSoundAssetMaximumBytes]
    omega

/-! ### The whole way -/

/-- An opened decoder plays these frames, whatever the room in the output, and then ends. -/
def Plays (opened : SoundAssetReadResult × SoundAssetStreamDecoder) (frames : List (List UInt8)) :
    Prop :=
  opened.1 = .ok ∧ ∀ capacity, kSoundAssetFrameSamples ≤ capacity →
    decodeUntilEnd capacity (frames.length + 1) opened.2 =
      (frames.flatMap hostSamples, .streamEnd)

/-- The speaker plays `device` in `frames`, as the Host would decode them. -/
structure SpeakerFaithful (pcm device : List UInt8) (frames : List (List UInt8)) : Prop where
  layout : device = deviceEiadHeader (pcm.length / 2) frames.length ++ frames.flatten
  size : device.length ≤ 4 * 1024 * 1024
  frameCount : frames.length < 2 ^ 16
  sampleCount : pcm.length / 2 < 2 ^ 32
  sizes : ∀ k (h : k < frames.length),
    readU16 frames[k] 0 = min deviceEiadFrameSamples (pcm.length / 2 - deviceEiadFrameSamples * k) ∧
      frames[k].length = deviceEiadFrameHeaderBytes + readU16 frames[k] 0 / 2
  samples : (frames.flatMap hostSamples).length = pcm.length / 2
  embedded : Plays (openEmbedded device device.length) frames
  streamed : ∀ header read, header.take kEiadHeaderBytes = device.take kEiadHeaderBytes →
    Serves device (.streaming read) → Plays (openStreaming header device.length read) frames

theorem length_hostSamples (samples : List Int) :
    (((chunks deviceEiadFrameSamples samples).map (imaFrame false)).flatMap hostSamples).length =
      samples.length := by
  have hpos : 0 < deviceEiadFrameSamples := by decide
  induction samples using chunks_induction hpos with
  | nil => simp [chunks_nil hpos]
  | cons samples hne ih =>
    have htake : (samples.take deviceEiadFrameSamples).length ≠ 0 := by
      have hsamples := List.length_pos_iff.2 hne
      rw [List.length_take]
      omega
    have hshape := imaFrame_shape false (List.length_pos_iff.1 (Nat.pos_of_ne_zero htake))
      (Nat.lt_of_le_of_lt (List.length_take_le _ _) (show deviceEiadFrameSamples < 2 ^ 16 by decide))
    rw [chunks_cons hpos hne, List.map_cons, List.flatMap_cons, List.length_append, ih, hostSamples,
      hshape.count, length_decodeImaFrame _ _ _ htake, ← List.length_append, List.take_append_drop]

theorem chunk_at {samples : List Int} {k : Nat} (h : k < (chunks deviceEiadFrameSamples samples).length) :
    (chunks deviceEiadFrameSamples samples)[k] =
      (samples.drop (deviceEiadFrameSamples * k)).take deviceEiadFrameSamples := by
  simp [chunks]

theorem plays {samples : List Int} {source : StreamSource} (hserves : Serves (deviceEiad samples) source)
    (hfew : (chunks deviceEiadFrameSamples samples).length < 2 ^ 16) {capacity : Nat}
    (hcapacity : kSoundAssetFrameSamples ≤ capacity) :
    decodeUntilEnd capacity (((chunks deviceEiadFrameSamples samples).map (imaFrame false)).length + 1) {
      source := some source
      encodedBytes := (deviceEiad samples).length
      totalSamples := samples.length
      frameCount := (chunks deviceEiadFrameSamples samples).length
      nextEncodedOffset := kEiadHeaderBytes
      ready := true } =
      (((chunks deviceEiadFrameSamples samples).map (imaFrame false)).flatMap hostSamples,
        .streamEnd) := by
  rw [List.length_map]
  have hat : At { source := some source
                  encodedBytes := (deviceEiad samples).length
                  totalSamples := samples.length
                  frameCount := (chunks deviceEiadFrameSamples samples).length
                  nextEncodedOffset := kEiadHeaderBytes
                  ready := true } (deviceEiad samples)
      (deviceEiadHeader samples.length (chunks deviceEiadFrameSamples samples).length) samples := by
    refine ⟨⟨source, rfl, hserves⟩, rfl, rfl, ?_, ?_, hfew, ?_, ?_, rfl⟩
    · exact Nat.zero_add _
    · exact Nat.zero_add _
    · rw [deviceEiadHeader_length]
      rfl
    · simp
  exact At.decodeUntilEnd hcapacity samples hat

/-- The container of the Host is played as it is, from memory and as a stream. -/
theorem deviceEiad_faithful {pcm : List UInt8} {samples : List Int}
    (hlength : samples.length = pcm.length / 2) (hpos : 0 < samples.length)
    (hmax : samples.length ≤ ttsSampleRate * maxTtsSeconds) :
    SpeakerFaithful pcm (deviceEiad samples)
      ((chunks deviceEiadFrameSamples samples).map (imaFrame false)) := by
  have hcount := length_chunks deviceEiadFrameSamples samples
  have hfew : (chunks deviceEiadFrameSamples samples).length < 2 ^ 16 := by
    rw [hcount]
    simp only [ttsSampleRate, maxTtsSeconds, deviceEiadFrameSamples] at hmax ⊢
    omega
  refine ⟨?_, deviceEiad_size hmax, ?_, ?_, ?_, ?_, ?_, ?_⟩
  · rw [List.length_map, ← hlength, deviceEiad, imaFrames, List.flatMap_def]
  · rwa [List.length_map]
  · simp only [ttsSampleRate, maxTtsSeconds] at hmax
    omega
  · intro k hk
    have hk' : k < (chunks deviceEiadFrameSamples samples).length := by rwa [List.length_map] at hk
    obtain ⟨hne, hle⟩ := mem_chunks (show 0 < deviceEiadFrameSamples by decide)
      (List.getElem_mem hk')
    have hshape := imaFrame_shape false hne
      (Nat.lt_of_le_of_lt hle (show deviceEiadFrameSamples < 2 ^ 16 by decide))
    rw [List.getElem_map]
    refine ⟨?_, ?_⟩
    · rw [hshape.count, chunk_at hk', List.length_take, List.length_drop, hlength]
    · rw [hshape.count, hshape.length]
      rfl
  · rw [length_hostSamples, hlength]
  · refine ⟨?_, fun capacity hcapacity => ?_⟩
    · rw [openEmbedded_ok hpos hmax rfl]
    · rw [openEmbedded_ok hpos hmax rfl]
      have hserves : Serves (deviceEiad samples) (.embedded (deviceEiad samples)) := rfl
      exact plays hserves hfew hcapacity
  · intro header read hheader hserves
    refine ⟨?_, fun capacity hcapacity => ?_⟩
    · rw [openStreaming, openEmbedded_ok hpos hmax hheader]
    · rw [openStreaming, openEmbedded_ok hpos hmax hheader]
      exact plays hserves hfew hcapacity

theorem speaker_plays_host_audio (pcm : List UInt8) :
    ((∃ artifacts, encodeTtsAudio pcm = .ok artifacts) ↔ AcceptedPcm pcm) ∧
      ∀ artifacts, encodeTtsAudio pcm = .ok artifacts →
        ∃ device frames, transcodeEiadForDevice artifacts.eiad = .ok device ∧
          SpeakerFaithful pcm device frames := by
  refine ⟨⟨fun ⟨artifacts, h⟩ => encodeTtsAudio_accepted h, fun h => ?_⟩, ?_⟩
  · obtain ⟨wav, hwav⟩ := encodeTtsAudio_ok h
    exact ⟨_, hwav⟩
  · intro artifacts hartifacts
    have haccepted := encodeTtsAudio_accepted hartifacts
    have hsamples := pcmSamples_length pcm
    have hpos : 0 < (pcmSamples pcm).length := hsamples ▸ haccepted.some
    have hmax : (pcmSamples pcm).length ≤ ttsSampleRate * maxTtsSeconds := hsamples ▸ haccepted.short
    obtain ⟨wav, hwav⟩ := encodeTtsAudio_ok haccepted
    obtain rfl := Except.ok.inj (hwav.symm.trans hartifacts)
    obtain ⟨decoded, hdecoded, htranscoded⟩ := transcodeEiadForDevice_ok hpos hmax
    exact ⟨_, _, htranscoded,
      deviceEiad_faithful (hdecoded.trans hsamples) (hdecoded ▸ hpos) (hdecoded ▸ hmax)⟩

end CodexKeyboard.Audio
