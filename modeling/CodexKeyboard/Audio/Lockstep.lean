import CodexKeyboard.Audio.Grammar

/-! The encoder and the decoder of the Host's EIAD code in lockstep: the decoder gives what the encoder
    itself went on from. -/

namespace CodexKeyboard.Audio

open Schemes.Chunks Schemes.Bytes Schemes.Transact

/-- The states the encoder can be in: that of a frame's first sample, and those after a sample. -/
inductive EncoderState : (predictor stepIndex : Int) → Prop
  | first (sample : Int) (rest : List Int) (hsample : -2 ^ 15 ≤ sample ∧ sample ≤ 2 ^ 15 - 1) :
    EncoderState sample (initialStepIndex sample rest)
  | encoded (sample predictor stepIndex : Int) (hsample : -2 ^ 15 ≤ sample ∧ sample ≤ 2 ^ 15 - 1)
    (h : EncoderState predictor stepIndex) :
    EncoderState (encodeImaSample sample predictor stepIndex).2.1
      (encodeImaSample sample predictor stepIndex).2.2

theorem EncoderState.inRange {predictor stepIndex : Int} (h : EncoderState predictor stepIndex) :
    InRange predictor stepIndex := by
  cases h with
  | first _ rest hsample =>
    have hstep := initialStepIndex_le predictor rest
    exact ⟨hsample, by omega⟩
  | encoded _ _ _ _ _ => exact encodeImaSample_inRange _ _ _

/-- The encoder's predictors after the samples that follow a frame's first. -/
def encoderPredictors : List Int → (predictor stepIndex : Int) → List Int
  | [], _, _ => []
  | sample :: rest, predictor, stepIndex =>
    let encoded := encodeImaSample sample predictor stepIndex
    encoded.2.1 :: encoderPredictors rest encoded.2.1 encoded.2.2

/-- The encoder's predictor after each sample of a frame; it starts from the first. -/
def framePredictors : List Int → List Int
  | [] => []
  | first :: rest => first :: encoderPredictors rest first (initialStepIndex first rest)

theorem length_encoderPredictors (rest : List Int) (predictor stepIndex : Int) :
    (encoderPredictors rest predictor stepIndex).length = rest.length := by
  induction rest generalizing predictor stepIndex with
  | nil => rfl
  | cons sample rest ih => rw [encoderPredictors, List.length_cons, ih, List.length_cons]

theorem length_framePredictors (samples : List Int) :
    (framePredictors samples).length = samples.length := by
  cases samples with
  | nil => rfl
  | cons first rest => rw [framePredictors, List.length_cons, length_encoderPredictors, List.length_cons]

/-! ### One frame -/

/-- Two codes of a byte. -/
theorem nibbles {low high : Nat} (hlow : low < 16) (hhigh : high < 16) :
    (UInt8.ofNat (low ||| (high <<< 4))).toNat &&& 0x0F = low ∧
      (UInt8.ofNat (low ||| (high <<< 4))).toNat >>> 4 = high := by
  have hall : ∀ low < 16, ∀ high < 16,
      (UInt8.ofNat (low ||| (high <<< 4))).toNat &&& 0x0F = low ∧
        (UInt8.ofNat (low ||| (high <<< 4))).toNat >>> 4 = high := by decide
  exact hall low hlow high hhigh

theorem byteAt_append_here (front : List UInt8) (byte : UInt8) (back : List UInt8) :
    byteAt (front ++ byte :: back) front.length = byte.toNat := by
  rw [byteAt, List.getD_append_right _ _ _ _ le_rfl, Nat.sub_self, List.getD_cons_zero]

/-- The codes of a frame, two to a byte, decode to the predictors of the encoder. -/
theorem decodeImaRest_encodeImaRest (rest : List Int) (front : List UInt8) (sampleIndex : Nat)
    (predictor stepIndex : Int) (hindex : sampleIndex = 2 * front.length + 1) :
    decodeImaRest (front ++ encodeImaRest rest none predictor stepIndex) rest.length sampleIndex
      predictor stepIndex = encoderPredictors rest predictor stepIndex := by
  induction rest using List.twoStepInduction generalizing front sampleIndex predictor stepIndex with
  | nil => rfl
  | singleton sample =>
    have hcode := encodeImaSample_code sample predictor stepIndex
    obtain ⟨hlow, -⟩ := nibbles hcode (show 0 < 16 by decide)
    rw [Nat.zero_shiftLeft, Nat.or_zero] at hlow
    simp only [encodeImaRest, List.length_cons, List.length_nil, decodeImaRest, encoderPredictors]
    rw [show (sampleIndex - 1) / 2 = front.length by omega, if_pos (by omega), byteAt_append_here, hlow,
      decodeImaSample_encode]
  | cons_cons sample next rest ih _ =>
    have hcode := encodeImaSample_code sample predictor stepIndex
    simp only [encodeImaRest, List.length_cons, decodeImaRest, encoderPredictors]
    generalize hfirst : encodeImaSample sample predictor stepIndex = first at hcode ⊢
    have hcode' := encodeImaSample_code next first.2.1 first.2.2
    generalize hsecond : encodeImaSample next first.2.1 first.2.2 = second at hcode' ⊢
    obtain ⟨hlow, hhigh⟩ := nibbles hcode hcode'
    have hnext := ih (front ++ [UInt8.ofNat (first.1 ||| (second.1 <<< 4))]) (sampleIndex + 1 + 1)
      second.2.1 second.2.2 (by simp only [List.length_append, List.length_singleton]; omega)
    rw [List.append_assoc, List.singleton_append] at hnext
    rw [show (sampleIndex - 1) / 2 = front.length by omega,
      show (sampleIndex + 1 - 1) / 2 = front.length by omega, if_pos (by omega), if_neg (by omega),
      byteAt_append_here, hlow, hhigh, ← hfirst, decodeImaSample_encode, hfirst, ← hsecond,
      decodeImaSample_encode, hsecond, hnext]

theorem i16FromLe_i16ToLe {sample : Int} (h : -2 ^ 15 ≤ sample ∧ sample ≤ 2 ^ 15 - 1) :
    i16FromLe (i16ToLe sample) = sample := by
  have hbytes : leNat (leBytes 2 (sample % 2 ^ 16).toNat) = (sample % 2 ^ 16).toNat :=
    leNat_leBytes (show (sample % 2 ^ 16).toNat < 256 ^ 2 by omega)
  simp only [i16FromLe, i16ToLe, hbytes]
  split <;> omega

/-- A frame of the encoder decodes to the encoder's predictors. -/
theorem framePcm_imaFrame {samples : List Int} (hne : samples ≠ []) (hshort : samples.length < 2 ^ 16)
    (hrange : ∀ sample ∈ samples, -2 ^ 15 ≤ sample ∧ sample ≤ 2 ^ 15 - 1) :
    framePcm (imaFrame true samples) = framePredictors samples := by
  have hcount : readU16 (imaFrame true samples) 0 = samples.length :=
    (imaFrame_shape true hne hshort).count
  cases samples with
  | nil => exact absurd rfl hne
  | cons first rest =>
    rw [framePcm, hcount, framePredictors]
    obtain ⟨a, b, hab⟩ := List.length_eq_two.1 (length_leBytes 2 (rest.length + 1))
    obtain ⟨e, f, hef⟩ := List.length_eq_two.1 (length_leBytes 2 ((rest.length + 1) / 2))
    obtain ⟨c, d, hcd⟩ := List.length_eq_two.1 (show (i16ToLe first).length = 2 from length_leBytes _ _)
    have hfirst := i16FromLe_i16ToLe (hrange first List.mem_cons_self)
    have hindex := initialStepIndex_le first rest
    have hstep : (UInt8.ofNat (initialStepIndex first rest)).toNat = initialStepIndex first rest := by
      rw [UInt8.toNat_ofNat']
      omega
    have hdecode := decodeImaRest_encodeImaRest rest [] 1 first (initialStepIndex first rest) rfl
    rw [List.nil_append] at hdecode
    rw [hcd] at hfirst
    rw [imaFrame, if_pos rfl, hab, hcd, hef]
    simp only [List.cons_append, List.nil_append, slice, List.drop_succ_cons, List.drop_zero,
      List.take_succ_cons, List.take_zero, hfirst, byteAt, List.getD_cons_succ, List.getD_cons_zero, hstep,
      eiadFrameHeaderBytes, decodeImaFrame, List.length_cons, Nat.add_sub_cancel, hdecode]

/-! ### The whole container -/

theorem pcmSamples_mem {pcm : List UInt8} {sample : Int} (h : sample ∈ pcmSamples pcm) :
    -2 ^ 15 ≤ sample ∧ sample ≤ 2 ^ 15 - 1 := by
  induction pcm using pcmSamples.induct with
  | case1 low high rest ih =>
    rw [pcmSamples, List.mem_cons] at h
    rcases h with rfl | h
    · exact i16FromLe_mem rfl
    · exact ih h
  | case2 pcm hshort =>
    rw [pcmSamples] at h
    · exact absurd h List.not_mem_nil
    · exact hshort

/-- The samples written out and read again. -/
theorem pcmSamples_flatMap {samples : List Int}
    (h : ∀ sample ∈ samples, -2 ^ 15 ≤ sample ∧ sample ≤ 2 ^ 15 - 1) :
    pcmSamples (samples.flatMap i16ToLe) = samples := by
  induction samples with
  | nil => rfl
  | cons sample samples ih =>
    obtain ⟨low, high, hbytes⟩ :=
      List.length_eq_two.1 (show (i16ToLe sample).length = 2 from length_leBytes _ _)
    have hsample := i16FromLe_i16ToLe (h sample List.mem_cons_self)
    rw [hbytes] at hsample
    rw [List.flatMap_cons, hbytes, List.cons_append, List.cons_append, List.nil_append, pcmSamples,
      hsample, ih fun x hx => h x (List.mem_cons_of_mem _ hx)]

theorem encoderPredictors_mem {rest : List Int} {predictor stepIndex sample : Int}
    (h : sample ∈ encoderPredictors rest predictor stepIndex) :
    -2 ^ 15 ≤ sample ∧ sample ≤ 2 ^ 15 - 1 := by
  induction rest generalizing predictor stepIndex with
  | nil => exact absurd h List.not_mem_nil
  | cons next rest ih =>
    rw [encoderPredictors, List.mem_cons] at h
    rcases h with rfl | h
    · exact (encodeImaSample_inRange _ _ _).predictor
    · exact ih h

theorem decodeImaRest_mem {payload : List UInt8} {remaining sampleIndex : Nat}
    {predictor stepIndex sample : Int}
    (h : sample ∈ decodeImaRest payload remaining sampleIndex predictor stepIndex) :
    -2 ^ 15 ≤ sample ∧ sample ≤ 2 ^ 15 - 1 := by
  induction remaining generalizing sampleIndex predictor stepIndex with
  | zero => exact absurd h List.not_mem_nil
  | succ remaining ih =>
    rw [decodeImaRest, List.mem_cons] at h
    rcases h with rfl | h
    · exact (decodeImaSample_inRange _ _ _).predictor
    · exact ih h

/-- Every sample of a frame fits in 16 bits. -/
theorem framePcm_mem {samples : Nat} {frame : List UInt8} {sample : Int} (h : EiadFrame samples frame)
    (hsample : sample ∈ framePcm frame) : -2 ^ 15 ≤ sample ∧ sample ≤ 2 ^ 15 - 1 := by
  obtain ⟨predictor, step, payload, rfl, hpredictor, -⟩ := h
  rw [framePcm, decodeImaFrame, List.mem_cons] at hsample
  rcases hsample with rfl | hsample
  · refine i16FromLe_mem (length_slice ?_)
    simp only [List.length_append, length_leBytes, hpredictor]
    omega
  · exact decodeImaRest_mem hsample

theorem mem_parts {sizes : List Nat} {parts : List (List UInt8)} {frame : List UInt8}
    (h : List.Forall₂ EiadFrame sizes parts) (hframe : frame ∈ parts) :
    ∃ samples, EiadFrame samples frame := by
  induction h with
  | nil => exact absurd hframe List.not_mem_nil
  | @cons size part _ _ hpart _ ih =>
    rcases List.mem_cons.1 hframe with rfl | hframe
    · exact ⟨size, hpart⟩
    · exact ih hframe

/-- The frames of the encoder are of the grammar. -/
theorem imaFrame_parts (samples : List Int) :
    List.Forall₂ EiadFrame (frameSizes samples.length (chunks eiadFrameSamples samples).length)
      ((chunks eiadFrameSamples samples).map (imaFrame true)) := by
  have hpos : 0 < eiadFrameSamples := by decide
  induction samples using chunks_induction hpos with
  | nil =>
    rw [chunks_nil hpos]
    exact .nil
  | cons samples hne ih =>
    have htake : samples.take eiadFrameSamples ≠ [] := by
      rw [← List.length_pos_iff, List.length_take]
      have hlength := List.length_pos_iff.2 hne
      omega
    have hshort : (samples.take eiadFrameSamples).length < 2 ^ 16 :=
      Nat.lt_of_le_of_lt (List.length_take_le _ _) (by decide)
    have hframe := (eiadFrame_iff (List.length_pos_iff.2 htake) hshort).2 (imaFrame_shape true htake hshort)
    rw [length_take_chunk samples hpos] at hframe
    rw [List.length_drop] at ih
    rw [chunks_cons hpos hne, List.length_cons, frameSizes_succ, List.map_cons]
    exact .cons hframe ih

/-- What the encoder makes is of the grammar. -/
theorem eiadV1_encoded {samples : List Int} (hpos : 0 < samples.length)
    (hmax : samples.length ≤ ttsSampleRate * maxTtsSeconds) :
    EiadV1 (eiadHeader samples.length (chunks eiadFrameSamples samples).length ++
      imaFrames eiadFrameSamples true samples) samples.length (chunks eiadFrameSamples samples).length :=
  ⟨⟨hpos, hmax⟩, length_chunks _ _, _, imaFrame_parts samples, by rw [imaFrames, List.flatMap_def]⟩

theorem validatePcm_accepted {pcm : List UInt8} {samples : Nat} (h : validatePcm pcm = .ok samples) :
    pcm.length = 2 * samples ∧ 0 < samples ∧ samples ≤ ttsSampleRate * maxTtsSeconds := by
  rw [validatePcm] at h
  split at h
  · exact absurd h (by simp)
  next hwhole =>
    rw [not_or, ne_eq, not_not] at hwhole
    have hpos := List.length_pos_iff.2 hwhole.1
    dsimp only at h
    split at h
    · exact absurd h (by simp)
    next hshort =>
      obtain rfl := Except.ok.inj h
      exact ⟨by omega, by omega, Nat.not_lt.1 hshort⟩

/-- Valid PCM is encoded, and its container decodes, frame by frame, to the encoder's predictors. -/
theorem decodeEiad_encodeEiad {pcm : List UInt8} {samples : Nat} (h : validatePcm pcm = .ok samples) :
    ∃ eiad output, encodeEiad pcm = .ok eiad ∧ decodeEiadChecked eiad = .ok output ∧
      pcmSamples output = (chunks eiadFrameSamples (pcmSamples pcm)).flatMap framePredictors ∧
      output.length = pcm.length := by
  obtain ⟨hlength, hpos, hmax⟩ := validatePcm_accepted h
  have htotal : (pcmSamples pcm).length = samples := by
    rw [pcmSamples_length]
    omega
  obtain ⟨hdecode, hcount⟩ := decodeEiadChecked_ok
    (eiadV1_encoded (show 0 < (pcmSamples pcm).length by omega) (by omega)) (imaFrame_parts _)
    (by rw [imaFrames, List.flatMap_def])
  have hframes : ((chunks eiadFrameSamples (pcmSamples pcm)).map (imaFrame true)).flatMap framePcm =
      (chunks eiadFrameSamples (pcmSamples pcm)).flatMap framePredictors := by
    rw [List.flatMap_map]
    refine List.flatMap_congr fun chunk hchunk => ?_
    obtain ⟨hne, hshort⟩ := mem_chunks (show 0 < eiadFrameSamples by decide) hchunk
    exact framePcm_imaFrame hne (Nat.lt_of_le_of_lt hshort (by decide))
      fun sample hsample => pcmSamples_mem (mem_of_mem_chunks hchunk hsample)
  rw [hframes] at hdecode hcount
  refine ⟨_, _, encodeEiad_ok hlength hpos hmax, hdecode, pcmSamples_flatMap ?_, ?_⟩
  · intro sample hsample
    obtain ⟨chunk, hchunk, hsample⟩ := List.mem_flatMap.1 hsample
    cases chunk with
    | nil => exact absurd hsample List.not_mem_nil
    | cons first rest =>
      rw [framePredictors, List.mem_cons] at hsample
      rcases hsample with rfl | hsample
      · exact pcmSamples_mem (mem_of_mem_chunks hchunk List.mem_cons_self)
      · exact encoderPredictors_mem hsample
  · rw [length_i16ToLe, hcount, htotal, hlength]

/-- What a container decodes to is what its frames decode to, each from its own bytes. -/
theorem decodeEiad_frames {eiad output : List UInt8} (h : decodeEiadChecked eiad = .ok output) :
    ∃ samples frames parts, EiadV1 eiad samples frames ∧
      List.Forall₂ EiadFrame (frameSizes samples frames) parts ∧
      eiad = eiadHeader samples frames ++ parts.flatten ∧
      pcmSamples output = parts.flatMap framePcm := by
  cases hinspect : inspectEiadChecked eiad with
  | error stop =>
    rw [decodeEiadChecked, hinspect] at h
    exact absurd h (by simp [bind, Except.bind])
  | ok metadata =>
    obtain ⟨samples, frames, -, hgrammar⟩ := (ends_inspectEiadChecked eiad).of_ok hinspect
    obtain ⟨parts, hparts, heiad⟩ := hgrammar.parts
    obtain ⟨hdecode, -⟩ := decodeEiadChecked_ok hgrammar hparts heiad
    rw [hdecode] at h
    obtain rfl := Except.ok.inj h
    refine ⟨samples, frames, parts, hgrammar, hparts, heiad, pcmSamples_flatMap ?_⟩
    rintro sample hsample
    obtain ⟨frame, hframe, hsample⟩ := List.mem_flatMap.1 hsample
    obtain ⟨size, hshape⟩ := mem_parts hparts hframe
    exact framePcm_mem hshape hsample

/-- The decoder gives, for valid PCM, what the encoder itself went on from: in every frame the first
    sample as it is and after it the encoder's predictors. Of any container it decodes a frame from that
    frame's bytes alone. In every state the encoder can be in, neither it nor the decoder overflows, and
    both leave it for the same one. -/
theorem eiad_lockstep {pcm : List UInt8} {samples : Nat} (h : validatePcm pcm = .ok samples) :
    (∃ eiad output, encodeEiad pcm = .ok eiad ∧ decodeEiadChecked eiad = .ok output ∧
      pcmSamples output = (chunks eiadFrameSamples (pcmSamples pcm)).flatMap framePredictors ∧
      output.length = pcm.length) ∧
    (∀ frame ∈ chunks eiadFrameSamples (pcmSamples pcm),
      (framePredictors frame).length = frame.length ∧ (framePredictors frame).head? = frame.head?) ∧
    (∀ eiad output, decodeEiadChecked eiad = .ok output → ∃ samples frames parts,
      EiadV1 eiad samples frames ∧ List.Forall₂ EiadFrame (frameSizes samples frames) parts ∧
        eiad = eiadHeader samples frames ++ parts.flatten ∧
        pcmSamples output = parts.flatMap framePcm) ∧
    (∀ sample predictor stepIndex, -2 ^ 15 ≤ sample ∧ sample ≤ 2 ^ 15 - 1 →
      EncoderState predictor stepIndex → ∃ code predictor' stepIndex',
        encodeImaSampleChecked sample predictor stepIndex = .ok (code, predictor', stepIndex') ∧
        encodeImaSample sample predictor stepIndex = (code, predictor', stepIndex') ∧
        InRange predictor' stepIndex' ∧
        decodeImaSampleChecked code predictor stepIndex = .ok (predictor', stepIndex')) := by
  refine ⟨decodeEiad_encodeEiad h, ?_, fun eiad output => decodeEiad_frames, ?_⟩
  · rintro frame -
    refine ⟨length_framePredictors frame, ?_⟩
    cases frame <;> rfl
  · rintro sample predictor stepIndex hsample hstate
    have hdecode := decodeImaSampleChecked_eq (encodeImaSample_code sample predictor stepIndex)
      hstate.inRange
    rw [decodeImaSample_encode] at hdecode
    exact ⟨_, _, _, encodeImaSampleChecked_eq hsample hstate.inRange, rfl,
      encodeImaSample_inRange _ _ _, hdecode⟩

theorem eiad_lockstep_short : ∃ eiad output, encodeEiad [0x34, 0x12, 0xFF, 0x7F] = .ok eiad ∧
    decodeEiadChecked eiad = .ok output ∧
    pcmSamples output =
      (chunks eiadFrameSamples (pcmSamples [0x34, 0x12, 0xFF, 0x7F])).flatMap framePredictors ∧
    output.length = 4 :=
  (eiad_lockstep (show validatePcm [0x34, 0x12, 0xFF, 0x7F] = .ok 2 from rfl)).1

end CodexKeyboard.Audio
