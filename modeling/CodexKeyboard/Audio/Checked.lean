import CodexKeyboard.Audio.Frames
import CodexKeyboard.Schemes.Transact

/-! The Host's EIAD code with everything that could panic in it: indices, unsigned differences and the
    32-bit arithmetic of the codec. Each function here answers as the one it stands for. -/

namespace CodexKeyboard.Audio

open Schemes.Chunks Schemes.Bytes Schemes.Transact

/-- How a call may stop: with an error of its own, or in a panic. -/
inductive Stop where
  | failed (e : AudioError)
  | panicked
  deriving DecidableEq, Repr

/-- `bytes[offset]`. -/
def index (bytes : List UInt8) (offset : Nat) : Except Stop Nat :=
  orThrow .panicked (bytes[offset]?.map UInt8.toNat)

/-- `&bytes[..stop]`. -/
def sliceTo (bytes : List UInt8) (stop : Nat) : Except Stop (List UInt8) :=
  if stop ≤ bytes.length then .ok (bytes.take stop) else .error .panicked

/-- `read_u16`, `read_u32` and `read_u64`, which answer with an error outside the slice. -/
def getUint (width : Nat) (bytes : List UInt8) (offset : Nat) : Except Stop Nat :=
  if offset + width ≤ bytes.length then .ok (readUint width bytes offset)
  else .error (.failed .invalidEiad)

/-- An unsigned difference. -/
def difference (a b : Nat) : Except Stop Nat := if b ≤ a then .ok (a - b) else .error .panicked

/-- The result of an `i32` operation. -/
def i32 (value : Int) : Except Stop Int :=
  if -2 ^ 31 ≤ value ∧ value < 2 ^ 31 then .ok value else .error .panicked

/-- `table[index as usize]`. -/
def tableAt (table : List Int) (index : Int) : Except Stop Int :=
  if 0 ≤ index then orThrow .panicked table[index.toNat]? else .error .panicked

theorem index_eq {bytes : List UInt8} {offset : Nat} (h : offset < bytes.length) :
    index bytes offset = .ok (byteAt bytes offset) := by
  rw [index, byteAt, List.getElem?_eq_getElem h, List.getD_eq_getElem _ _ h]
  rfl

theorem sliceTo_eq {bytes : List UInt8} {stop : Nat} (h : stop ≤ bytes.length) :
    sliceTo bytes stop = .ok (bytes.take stop) := if_pos h

theorem getUint_eq {width offset : Nat} {bytes : List UInt8} (h : offset + width ≤ bytes.length) :
    getUint width bytes offset = .ok (readUint width bytes offset) := if_pos h

theorem difference_eq {a b : Nat} (h : b ≤ a) : difference a b = .ok (a - b) := if_pos h

theorem i32_eq {value : Int} (h : -2 ^ 31 ≤ value ∧ value < 2 ^ 31) : i32 value = .ok value := if_pos h

/-! ### The codec -/

/-- A predictor and a step index the codec can be in. -/
structure InRange (predictor stepIndex : Int) : Prop where
  predictor : -2 ^ 15 ≤ predictor ∧ predictor ≤ 2 ^ 15 - 1
  step : 0 ≤ stepIndex ∧ stepIndex ≤ 88

def nextStepIndexChecked (stepIndex : Int) (code : Nat) : Except Stop Int := do
  let change ← tableAt imaIndexTable code
  let next ← i32 (stepIndex + change)
  .ok (clamp 0 88 next)

/-- The magnitude of a difference. -/
def magnitude (value : Int) : Except Stop Int := if value < 0 then i32 (-value) else .ok value

/-- A delta, which grows by a part of the step where its bit is set. -/
def grow (bit : Prop) [Decidable bit] (delta part : Int) : Except Stop Int :=
  if bit then i32 (delta + part) else .ok delta

/-- A difference, of which a part is taken where it reaches that part. -/
def shrink (remaining part : Int) : Except Stop Int :=
  if part ≤ remaining then i32 (remaining - part) else .ok remaining

/-- The predictor, a delta below or above it. -/
def move (negative : Prop) [Decidable negative] (predictor delta : Int) : Except Stop Int := do
  let moved ← i32 (if negative then predictor - delta else predictor + delta)
  .ok (clamp (-2 ^ 15) (2 ^ 15 - 1) moved)

def encodeImaSampleChecked (sample predictor stepIndex : Int) : Except Stop (Nat × Int × Int) := do
  let step ← tableAt imaStepTable stepIndex
  let signed ← i32 (sample - predictor)
  let full ← magnitude signed
  let half ← shrink full step
  let delta ← grow (step ≤ full) (step >>> (3 : Nat)) step
  let quarter ← shrink half (step >>> (1 : Nat))
  let delta ← grow (step >>> (1 : Nat) ≤ half) delta (step >>> (1 : Nat))
  let delta ← grow (step >>> (2 : Nat) ≤ quarter) delta (step >>> (2 : Nat))
  let code := (if signed < 0 then 8 else 0) ||| (if step ≤ full then 4 else 0) |||
    (if step >>> (1 : Nat) ≤ half then 2 else 0) ||| (if step >>> (2 : Nat) ≤ quarter then 1 else 0)
  let predictor ← move (signed < 0) predictor delta
  let stepIndex ← nextStepIndexChecked stepIndex code
  .ok (code, predictor, stepIndex)

def decodeImaSampleChecked (code : Nat) (predictor stepIndex : Int) : Except Stop (Int × Int) := do
  let step ← tableAt imaStepTable stepIndex
  let delta ← grow (code &&& 4 ≠ 0) (step >>> (3 : Nat)) step
  let delta ← grow (code &&& 2 ≠ 0) delta (step >>> (1 : Nat))
  let delta ← grow (code &&& 1 ≠ 0) delta (step >>> (2 : Nat))
  let predictor ← move (code &&& 8 ≠ 0) predictor delta
  let stepIndex ← nextStepIndexChecked stepIndex code
  .ok (predictor, stepIndex)

theorem clamp_mem {low high : Int} (value : Int) (h : low ≤ high) :
    low ≤ clamp low high value ∧ clamp low high value ≤ high := by
  simp only [clamp]
  omega

/-- The step size of a step index in range. -/
theorem step_mem {stepIndex : Int} (h : 0 ≤ stepIndex ∧ stepIndex ≤ 88) :
    tableAt imaStepTable stepIndex = .ok (imaStepTable.getD stepIndex.toNat 0) ∧
      7 ≤ imaStepTable.getD stepIndex.toNat 0 ∧ imaStepTable.getD stepIndex.toNat 0 ≤ 32767 := by
  have hall : ∀ i < 89, imaStepTable[i]? = some (imaStepTable.getD i 0) ∧
      7 ≤ imaStepTable.getD i 0 ∧ imaStepTable.getD i 0 ≤ 32767 := by decide
  obtain ⟨hsome, hbounds⟩ := hall stepIndex.toNat (by omega)
  refine ⟨?_, hbounds⟩
  rw [tableAt, if_pos h.1, hsome]
  rfl

theorem shift_mem {step : Int} (n : Nat) (h : 0 ≤ step) : 0 ≤ step >>> n ∧ step >>> n ≤ step := by
  rw [Int.shiftRight_eq_div_pow]
  have hpow : (1 : Int) ≤ ((2 ^ n : Nat) : Int) := by exact_mod_cast Nat.one_le_two_pow
  exact ⟨Int.ediv_nonneg h (by omega), Int.ediv_le_self _ h⟩

theorem nextStepIndexChecked_eq {stepIndex : Int} {code : Nat} (h : 0 ≤ stepIndex ∧ stepIndex ≤ 88)
    (hcode : code < 16) :
    nextStepIndexChecked stepIndex code = .ok (nextStepIndex stepIndex code) := by
  have hall : ∀ i < 16, imaIndexTable[i]? = some (imaIndexTable.getD i 0) ∧
      -1 ≤ imaIndexTable.getD i 0 ∧ imaIndexTable.getD i 0 ≤ 8 := by decide
  obtain ⟨hsome, hlow, hhigh⟩ := hall code hcode
  have htable : tableAt imaIndexTable code = .ok (imaIndexTable.getD code 0) := by
    rw [tableAt, if_pos (Int.natCast_nonneg code), Int.toNat_natCast, hsome]
    rfl
  rw [nextStepIndexChecked, htable]
  simp only [bind, Except.bind]
  rw [i32_eq (by omega)]
  rfl

theorem nextStepIndex_mem (stepIndex : Int) (code : Nat) :
    0 ≤ nextStepIndex stepIndex code ∧ nextStepIndex stepIndex code ≤ 88 :=
  clamp_mem _ (by decide)

theorem magnitude_eq {value : Int} (h : -65535 ≤ value ∧ value ≤ 65535) :
    magnitude value = .ok (if value < 0 then -value else value) := by
  rw [magnitude]
  split
  · exact i32_eq (by omega)
  · rfl

theorem grow_eq {bit : Prop} [Decidable bit] {delta part : Int} (hdelta : 0 ≤ delta ∧ delta ≤ 131070)
    (hpart : 0 ≤ part ∧ part ≤ 32767) :
    grow bit delta part = .ok (if bit then delta + part else delta) := by
  rw [grow]
  split
  · exact i32_eq (by omega)
  · rfl

theorem shrink_eq {remaining part : Int} (hremaining : 0 ≤ remaining ∧ remaining ≤ 65535)
    (hpart : 0 ≤ part ∧ part ≤ 32767) :
    shrink remaining part = .ok (if part ≤ remaining then remaining - part else remaining) := by
  rw [shrink]
  split
  · exact i32_eq (by omega)
  · rfl

theorem move_eq {negative : Prop} [Decidable negative] {predictor delta : Int}
    (hpredictor : -2 ^ 15 ≤ predictor ∧ predictor ≤ 2 ^ 15 - 1) (hdelta : 0 ≤ delta ∧ delta ≤ 131070) :
    move negative predictor delta =
      .ok (clamp (-2 ^ 15) (2 ^ 15 - 1) (if negative then predictor - delta else predictor + delta)) := by
  rw [move, i32_eq (by split <;> omega), ok_bind]

/-- The three growths of a delta stay small. -/
theorem grown_mem {bit : Prop} [Decidable bit] {delta part bound : Int} (hdelta : 0 ≤ delta ∧ delta ≤ bound)
    (hpart : 0 ≤ part ∧ part ≤ 32767) :
    0 ≤ (if bit then delta + part else delta) ∧ (if bit then delta + part else delta) ≤ bound + 32767 := by
  split <;> omega

/-- No operation of the encoder overflows, and no index leaves its table. -/
theorem encodeImaSampleChecked_eq {sample predictor stepIndex : Int}
    (hsample : -2 ^ 15 ≤ sample ∧ sample ≤ 2 ^ 15 - 1) (h : InRange predictor stepIndex) :
    encodeImaSampleChecked sample predictor stepIndex =
      .ok (encodeImaSample sample predictor stepIndex) := by
  obtain ⟨hstep, hlow, hhigh⟩ := step_mem h.step
  have hpredictor := h.predictor
  have hcode := encodeImaSample_code sample predictor stepIndex
  simp only [encodeImaSampleChecked, encodeImaSample, hstep, ok_bind] at hcode ⊢
  generalize imaStepTable.getD stepIndex.toNat 0 = step at *
  have h3 := shift_mem 3 (show 0 ≤ step by omega)
  have h1 := shift_mem 1 (show 0 ≤ step by omega)
  have h2 := shift_mem 2 (show 0 ≤ step by omega)
  have hfull : 0 ≤ (if sample - predictor < 0 then -(sample - predictor) else sample - predictor) ∧
      (if sample - predictor < 0 then -(sample - predictor) else sample - predictor) ≤ 65535 := by
    split <;> omega
  rw [i32_eq (by omega), ok_bind, magnitude_eq (by omega), ok_bind]
  generalize (if sample - predictor < 0 then -(sample - predictor) else sample - predictor) = full at *
  have hhalf : 0 ≤ (if step ≤ full then full - step else full) ∧
      (if step ≤ full then full - step else full) ≤ 65535 := by
    split <;> omega
  rw [shrink_eq hfull (by omega), ok_bind, grow_eq (by omega) (by omega), ok_bind,
    shrink_eq hhalf (by omega), ok_bind]
  have hfirst := @grown_mem (step ≤ full) _ (step >>> (3 : Nat)) step 32767 (by omega) (by omega)
  rw [grow_eq (by omega) (by omega), ok_bind]
  have hsecond := @grown_mem (step >>> (1 : Nat) ≤ if step ≤ full then full - step else full) _
    (if step ≤ full then step >>> (3 : Nat) + step else step >>> (3 : Nat)) (step >>> (1 : Nat)) 65534
    (by omega) (by omega)
  rw [grow_eq (by omega) (by omega), ok_bind, move_eq hpredictor ?_, ok_bind,
    nextStepIndexChecked_eq h.step hcode, ok_bind]
  split <;> omega

/-- Nor does one of the decoder. -/
theorem decodeImaSampleChecked_eq {code : Nat} {predictor stepIndex : Int} (hcode : code < 16)
    (h : InRange predictor stepIndex) :
    decodeImaSampleChecked code predictor stepIndex = .ok (decodeImaSample code predictor stepIndex) := by
  obtain ⟨hstep, hlow, hhigh⟩ := step_mem h.step
  simp only [decodeImaSampleChecked, decodeImaSample, hstep, ok_bind]
  generalize imaStepTable.getD stepIndex.toNat 0 = step at *
  have h3 := shift_mem 3 (show 0 ≤ step by omega)
  have h1 := shift_mem 1 (show 0 ≤ step by omega)
  have h2 := shift_mem 2 (show 0 ≤ step by omega)
  have hfirst := @grown_mem (code &&& 4 ≠ 0) _ (step >>> (3 : Nat)) step 32767 (by omega) (by omega)
  rw [grow_eq (by omega) (by omega), ok_bind]
  generalize (if code &&& 4 ≠ 0 then step >>> (3 : Nat) + step else step >>> (3 : Nat)) = delta at *
  have hsecond := @grown_mem (code &&& 2 ≠ 0) _ delta (step >>> (1 : Nat)) 65534 (by omega) (by omega)
  rw [grow_eq (by omega) (by omega), ok_bind]
  generalize (if code &&& 2 ≠ 0 then delta + step >>> (1 : Nat) else delta) = delta at *
  have hthird := @grown_mem (code &&& 1 ≠ 0) _ delta (step >>> (2 : Nat)) 98301 (by omega) (by omega)
  rw [grow_eq (by omega) (by omega), ok_bind, move_eq h.predictor (by omega), ok_bind,
    nextStepIndexChecked_eq h.step hcode, ok_bind]

theorem encodeImaSample_inRange (sample predictor stepIndex : Int) :
    InRange (encodeImaSample sample predictor stepIndex).2.1
      (encodeImaSample sample predictor stepIndex).2.2 :=
  ⟨clamp_mem _ (by decide), nextStepIndex_mem _ _⟩

theorem decodeImaSample_inRange (code : Nat) (predictor stepIndex : Int) :
    InRange (decodeImaSample code predictor stepIndex).1 (decodeImaSample code predictor stepIndex).2 :=
  ⟨clamp_mem _ (by decide), nextStepIndex_mem _ _⟩

/-- A reader of the code is where its writer is. -/
theorem decodeImaSample_encode (sample predictor stepIndex : Int) :
    decodeImaSample (encodeImaSample sample predictor stepIndex).1 predictor stepIndex =
      (encodeImaSample sample predictor stepIndex).2 := by
  simp only [encodeImaSample, decodeImaSample]
  split <;> split <;> split <;> split <;> rfl

/-! ### The container -/

/-- The size a frame must have: what is left for the last one. -/
def expectedSamplesChecked (samples remaining countedSamples : Nat) : Except Stop Nat :=
  if remaining = 0 then difference samples countedSamples else .ok eiadFrameSamples

/-- The last byte of a frame, where it holds one code only. -/
def lastCodesChecked (eiad : List UInt8) (deltas frameEnd : Nat) : Except Stop Nat :=
  if deltas % 2 ≠ 0 then difference frameEnd 1 >>= index eiad else .ok 0

/-- One turn of the loop of `inspect_eiad`: where the frame ends, and its samples. -/
def inspectFrameChecked (eiad : List UInt8) (samples remaining offset countedSamples : Nat) :
    Except Stop (Nat × Nat) := do
  let stop := offset + eiadFrameHeaderBytes
  ensure (stop ≤ eiad.length) (.failed .invalidEiad)
  let frameSamples ← getUint 2 eiad offset
  let stepIndex ← index eiad (offset + 4)
  let reserved ← index eiad (offset + 5)
  let payloadBytes ← getUint 2 eiad (offset + 6)
  let expectedSamples ← expectedSamplesChecked samples remaining countedSamples
  let expectedPayload := (expectedSamples - 1 + 1) / 2
  ensure (frameSamples = expectedSamples ∧ frameSamples ≠ 0 ∧ frameSamples ≤ eiadFrameSamples ∧
    stepIndex ≤ 88 ∧ reserved = 0 ∧ payloadBytes = expectedPayload) (.failed .invalidEiad)
  let frameEnd := stop + payloadBytes
  ensure (frameEnd ≤ eiad.length) (.failed .invalidEiad)
  let deltas ← difference frameSamples 1
  let last ← lastCodesChecked eiad deltas frameEnd
  ensure (last &&& 0xF0 = 0) (.failed .invalidEiad)
  .ok (frameEnd, frameSamples)

/-- The loop of `inspect_eiad`. -/
def inspectFramesChecked (eiad : List UInt8) (samples : Nat) :
    (remaining offset countedSamples : Nat) → Except Stop (Nat × Nat)
  | 0, offset, countedSamples => .ok (offset, countedSamples)
  | remaining + 1, offset, countedSamples => do
    let (frameEnd, frameSamples) ← inspectFrameChecked eiad samples remaining offset countedSamples
    inspectFramesChecked eiad samples remaining frameEnd (countedSamples + frameSamples)

/-- `inspect_eiad`. -/
def inspectEiadChecked (eiad : List UInt8) : Except Stop EiadMetadata := do
  ensure (eiadHeaderBytes ≤ eiad.length) (.failed .invalidEiad)
  let magic ← sliceTo eiad 4
  ensure (magic = eiadMagic) (.failed .invalidEiad)
  let version ← getUint 2 eiad 4
  ensure (version = eiadVersion) (.failed .invalidEiad)
  let header ← getUint 2 eiad 6
  ensure (header = eiadHeaderBytes) (.failed .invalidEiad)
  let rate ← getUint 4 eiad 8
  ensure (rate = ttsSampleRate) (.failed .invalidEiad)
  let channels ← getUint 2 eiad 12
  ensure (channels = 1) (.failed .invalidEiad)
  let bits ← getUint 2 eiad 14
  ensure (bits = 4) (.failed .invalidEiad)
  let frame ← getUint 2 eiad 16
  ensure (frame = eiadFrameSamples) (.failed .invalidEiad)
  let frameHeader ← getUint 2 eiad 18
  ensure (frameHeader = eiadFrameHeaderBytes) (.failed .invalidEiad)
  let samples ← getUint 8 eiad 20
  let frames ← getUint 4 eiad 28
  ensure (samples ≠ 0 ∧ samples ≤ ttsSampleRate * maxTtsSeconds ∧
    frames = (samples + eiadFrameSamples - 1) / eiadFrameSamples) (.failed .invalidEiad)
  let (offset, countedSamples) ← inspectFramesChecked eiad samples frames eiadHeaderBytes 0
  ensure (offset = eiad.length ∧ countedSamples = samples) (.failed .invalidEiad)
  .ok ⟨ttsSampleRate, samples, frames⟩

/-- The inner loop of `decode_eiad`, whose codes start at `body`. -/
def decodeImaRestChecked (eiad : List UInt8) (body : Nat) :
    (remaining sampleIndex : Nat) → (predictor stepIndex : Int) → Except Stop (List Int)
  | 0, _, _, _ => .ok []
  | remaining + 1, sampleIndex, predictor, stepIndex => do
    let packed ← index eiad (body + (sampleIndex - 1) / 2)
    let nibble := if sampleIndex % 2 ≠ 0 then packed &&& 0x0F else packed >>> 4
    let decoded ← decodeImaSampleChecked nibble predictor stepIndex
    let rest ← decodeImaRestChecked eiad body remaining (sampleIndex + 1) decoded.1 decoded.2
    .ok (decoded.1 :: rest)

/-- The outer loop of `decode_eiad`. -/
def decodeFramesChecked (eiad : List UInt8) : (remaining offset : Nat) → Except Stop (List Int)
  | 0, _ => .ok []
  | remaining + 1, offset => do
    let samples ← getUint 2 eiad offset
    let low ← index eiad (offset + 2)
    let high ← index eiad (offset + 3)
    let predictor := i16FromLe [UInt8.ofNat low, UInt8.ofNat high]
    let stepIndex ← index eiad (offset + 4)
    let payloadBytes ← getUint 2 eiad (offset + 6)
    let body := offset + eiadFrameHeaderBytes
    let rest ← decodeImaRestChecked eiad body (samples - 1) 1 predictor stepIndex
    let frames ← decodeFramesChecked eiad remaining (body + payloadBytes)
    .ok (predictor :: rest ++ frames)

/-- `decode_eiad`. -/
def decodeEiadChecked (eiad : List UInt8) : Except Stop (List UInt8) := do
  let metadata ← inspectEiadChecked eiad
  let samples ← decodeFramesChecked eiad metadata.frames eiadHeaderBytes
  .ok (samples.flatMap i16ToLe)

end CodexKeyboard.Audio
