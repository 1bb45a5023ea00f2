import CodexKeyboard.Audio.Eiad
import Mathlib.Tactic

/-! The frames both containers are made of, and that the Host takes its own containers back. -/

namespace CodexKeyboard.Audio

open Schemes.Chunks Schemes.Bytes

/-! ### One frame -/

/-- The bytes of a frame. -/
def imaFrame (includePayloadLength : Bool) : List Int → List UInt8
  | [] => []
  | first :: rest =>
    leBytes 2 (rest.length + 1) ++ i16ToLe first ++
      [UInt8.ofNat (initialStepIndex first rest), 0] ++
      (if includePayloadLength then leBytes 2 ((rest.length + 1) / 2) else []) ++
      encodeImaRest rest none first (initialStepIndex first rest)

theorem encodeImaFrame_eq {samples : List Int} (includePayloadLength : Bool) (hne : samples ≠ [])
    (hshort : samples.length < 2 ^ 16) :
    encodeImaFrameWithLayout samples includePayloadLength =
      .ok (imaFrame includePayloadLength samples) := by
  cases samples with
  | nil => exact absurd rfl hne
  | cons first rest =>
    rw [List.length_cons] at hshort
    have hbytes : ¬ (includePayloadLength = true ∧ 2 ^ 16 ≤ (rest.length + 1) / 2) := by omega
    simp only [encodeImaFrameWithLayout, List.length_cons, if_neg (Nat.not_le.2 hshort),
      if_neg hbytes, imaFrame]

theorem encodeImaSample_code (sample predictor stepIndex : Int) :
    (encodeImaSample sample predictor stepIndex).1 < 16 := by
  simp only [encodeImaSample]
  split <;> split <;> split <;> split <;> decide

theorem initialStepIndex_le (first : Int) (rest : List Int) : initialStepIndex first rest ≤ 88 := by
  cases rest with
  | nil => simp [initialStepIndex]
  | cons second rest =>
    simp only [initialStepIndex]
    cases h : imaStepTable.findIdx? fun step => decide (max |second - first| 7 ≤ step) with
    | none => simp
    | some k =>
      have hk := (List.findIdx?_eq_some_iff_findIdx_eq.1 h).1
      have hlength : imaStepTable.length = 89 := rfl
      simp only [Option.getD_some]
      omega

/-- The bytes of the codes, with the one that waits for its second half. -/
theorem length_encodeImaRest (rest : List Int) (pending : Option Nat) (predictor stepIndex : Int) :
    (encodeImaRest rest pending predictor stepIndex).length =
      (rest.length + pending.toList.length + 1) / 2 := by
  induction rest generalizing pending predictor stepIndex with
  | nil => cases pending <;> simp [encodeImaRest]
  | cons sample rest ih =>
    cases pending with
    | none =>
      simp only [encodeImaRest, ih, Option.toList_some, Option.toList_none, List.length_cons,
        List.length_nil]
    | some low =>
      simp only [encodeImaRest, List.length_cons, ih, Option.toList_none, Option.toList_some,
        List.length_nil]
      omega

/-- A last code without a second half leaves the high half of its byte zero. -/
theorem encodeImaRest_tail (rest : List Int) (pending : Option Nat) (predictor stepIndex : Int)
    (hpending : ∀ low ∈ pending, low < 16)
    (hodd : (rest.length + pending.toList.length) % 2 = 1) :
    ((encodeImaRest rest pending predictor stepIndex).getLastD 0).toNat &&& 0xF0 = 0 := by
  have hlow : ∀ low, low < 16 → (UInt8.ofNat low).toNat &&& 0xF0 = 0 := by decide
  induction rest generalizing pending predictor stepIndex with
  | nil =>
    cases pending with
    | none => simp at hodd
    | some low => simpa [encodeImaRest] using hlow low (hpending low rfl)
  | cons sample rest ih =>
    cases pending with
    | none =>
      refine ih _ _ _ ?_ ?_
      · rintro low hcode
        obtain rfl := Option.mem_some.1 hcode
        exact encodeImaSample_code _ _ _
      · simp only [Option.toList_none, Option.toList_some, List.length_cons, List.length_nil] at hodd ⊢
        omega
    | some low =>
      simp only [Option.toList_some, List.length_cons, List.length_nil] at hodd
      have hodd' : rest.length % 2 = 1 := by omega
      have hne : encodeImaRest rest none (encodeImaSample sample predictor stepIndex).2.1
          (encodeImaSample sample predictor stepIndex).2.2 ≠ [] := by
        rw [← List.length_pos_iff, length_encodeImaRest]
        simp only [Option.toList_none, List.length_nil]
        omega
      have htail := ih none (encodeImaSample sample predictor stepIndex).2.1
        (encodeImaSample sample predictor stepIndex).2.2 (by simp) (by simpa using hodd')
      simp only [encodeImaRest]
      rw [List.getLastD_cons]
      rwa [List.getLastD_eq_getLast?, List.getLast?_eq_some_getLast hne, Option.getD_some] at htail ⊢

/-! ### What a reader finds -/

theorem byteAt_last (front : List UInt8) {back : List UInt8} (hne : back ≠ []) :
    byteAt (front ++ back) ((front ++ back).length - 1) = (back.getLastD 0).toNat := by
  have hpos : 0 < back.length := List.length_pos_iff.2 hne
  have hindex : (front ++ back).length - 1 - front.length = back.length - 1 := by
    rw [List.length_append]
    omega
  rw [byteAt, List.getD_append_right _ _ _ _ (by rw [List.length_append]; omega), hindex,
    List.getLastD_eq_getLast?, List.getLast?_eq_getElem?, List.getD_eq_getElem?_getD]

/-- At the head of a frame of `samples` samples, and in its last byte. -/
structure FrameShape (includePayloadLength : Bool) (samples : Nat) (frame : List UInt8) : Prop where
  length : frame.length = (if includePayloadLength then 8 else 6) + samples / 2
  count : readU16 frame 0 = samples
  step : byteAt frame 4 ≤ 88
  reserved : byteAt frame 5 = 0
  payload : includePayloadLength = true → readU16 frame 6 = samples / 2
  tail : samples % 2 = 0 → byteAt frame (frame.length - 1) &&& 0xF0 = 0

theorem imaFrame_shape (includePayloadLength : Bool) {samples : List Int} (hne : samples ≠ [])
    (hshort : samples.length < 2 ^ 16) :
    FrameShape includePayloadLength samples.length (imaFrame includePayloadLength samples) := by
  cases samples with
  | nil => exact absurd rfl hne
  | cons first rest =>
    rw [List.length_cons] at hshort ⊢
    have hstep := initialStepIndex_le first rest
    have hcodes := length_encodeImaRest rest none first (initialStepIndex first rest)
    simp only [Option.toList_none, List.length_nil, Nat.add_zero] at hcodes
    have hcount : leNat (leBytes 2 (rest.length + 1)) = rest.length + 1 := leNat_leBytes hshort
    have hbytes : leNat (leBytes 2 ((rest.length + 1) / 2)) = (rest.length + 1) / 2 :=
      leNat_leBytes (show (rest.length + 1) / 2 < 256 ^ 2 by omega)
    obtain ⟨a, b, hab⟩ := List.length_eq_two.1 (length_leBytes 2 (rest.length + 1))
    obtain ⟨c, d, hcd⟩ := List.length_eq_two.1 (show (i16ToLe first).length = 2 from length_leBytes _ _)
    obtain ⟨e, f, hef⟩ := List.length_eq_two.1 (length_leBytes 2 ((rest.length + 1) / 2))
    rw [hab] at hcount
    rw [hef] at hbytes
    have htail : (rest.length + 1) % 2 = 0 → ∀ front,
        byteAt (front ++ encodeImaRest rest none first (initialStepIndex first rest))
          ((front ++ encodeImaRest rest none first (initialStepIndex first rest)).length - 1) &&&
            0xF0 = 0 := by
      intro heven front
      have hcodesNe : encodeImaRest rest none first (initialStepIndex first rest) ≠ [] := by
        rw [← List.length_pos_iff]
        omega
      rw [byteAt_last front hcodesNe]
      exact encodeImaRest_tail rest none _ _ (by simp) (by simp; omega)
    have hindex : (UInt8.ofNat (initialStepIndex first rest)).toNat ≤ 88 := by
      rw [UInt8.toNat_ofNat']
      omega
    rw [imaFrame, hab, hcd, hef]
    cases includePayloadLength with
    | false =>
      refine ⟨?_, hcount, hindex, rfl, by simp, fun heven => htail heven _⟩
      simp [hcodes]
      omega
    | true =>
      refine ⟨?_, hcount, hindex, rfl, fun _ => hbytes, fun heven => htail heven _⟩
      simp [hcodes]
      omega

/-! ### The frames of a container -/

def imaFrames (frameSamples : Nat) (includePayloadLength : Bool) (samples : List Int) : List UInt8 :=
  (chunks frameSamples samples).flatMap (imaFrame includePayloadLength)

theorem mapM_ok {ε α β : Type} {f : α → Except ε β} {g : α → β} {l : List α}
    (h : ∀ x ∈ l, f x = .ok (g x)) : l.mapM f = .ok (l.map g) := by
  induction l with
  | nil => rfl
  | cons x l ih =>
    rw [List.mapM_cons, h x List.mem_cons_self, ih fun y hy => h y (List.mem_cons_of_mem x hy)]
    rfl

theorem encodeFrames_eq {frameSamples : Nat} (includePayloadLength : Bool) (samples : List Int)
    (hpos : 0 < frameSamples) (hshort : frameSamples < 2 ^ 16) :
    encodeFrames frameSamples includePayloadLength samples =
      .ok (imaFrames frameSamples includePayloadLength samples) := by
  have hall : ∀ frame ∈ chunks frameSamples samples,
      encodeImaFrameWithLayout frame includePayloadLength =
        .ok (imaFrame includePayloadLength frame) := by
    intro frame hframe
    obtain ⟨hne, hle⟩ := mem_chunks hpos hframe
    exact encodeImaFrame_eq _ hne (Nat.lt_of_le_of_lt hle hshort)
  rw [encodeFrames, mapM_ok hall, imaFrames, List.flatMap_def]
  rfl

theorem imaFrames_cons {frameSamples : Nat} (includePayloadLength : Bool) {samples : List Int}
    (hpos : 0 < frameSamples) (hne : samples ≠ []) :
    imaFrames frameSamples includePayloadLength samples =
      imaFrame includePayloadLength (samples.take frameSamples) ++
        imaFrames frameSamples includePayloadLength (samples.drop frameSamples) := by
  rw [imaFrames, chunks_cons hpos hne, List.flatMap_cons, imaFrames]

theorem readUint_mid {width offset : Nat} {front middle back : List UInt8}
    (h : offset + width ≤ middle.length) :
    readUint width (front ++ middle ++ back) (front.length + offset) =
      readUint width middle offset := by
  rw [readUint, readUint, slice_append_mid h]

theorem byteAt_mid {offset : Nat} {front middle back : List UInt8} (h : offset < middle.length) :
    byteAt (front ++ middle ++ back) (front.length + offset) = byteAt middle offset := by
  rw [byteAt, byteAt, List.append_assoc, List.getD_append_right _ _ _ _ (Nat.le_add_right _ _),
    Nat.add_sub_cancel_left, List.getD_append _ _ _ _ h]

/-! ### The container of the cache, read back -/

def frameHeaderBytes (includePayloadLength : Bool) : Nat := if includePayloadLength then 8 else 6

/-- What a reader finds of a frame of `samples` samples at `offset`, `rest` bytes before the end. -/
structure FrameAt (includePayloadLength : Bool) (eiad : List UInt8) (offset samples rest : Nat) :
    Prop where
  length : eiad.length = offset + frameHeaderBytes includePayloadLength + samples / 2 + rest
  count : readU16 eiad offset = samples
  step : byteAt eiad (offset + 4) ≤ 88
  reserved : byteAt eiad (offset + 5) = 0
  payload : includePayloadLength = true → readU16 eiad (offset + 6) = samples / 2
  tail : samples % 2 = 0 → samples ≠ 0 →
    byteAt eiad (offset + frameHeaderBytes includePayloadLength + samples / 2 - 1) &&& 0xF0 = 0

theorem FrameShape.placed {includePayloadLength : Bool} {samples : Nat} {frame : List UInt8}
    (h : FrameShape includePayloadLength samples frame) (front back : List UInt8) :
    FrameAt includePayloadLength (front ++ frame ++ back) front.length samples back.length := by
  have hlength : frame.length = frameHeaderBytes includePayloadLength + samples / 2 := h.length
  have hheader : 6 ≤ frameHeaderBytes includePayloadLength := by
    cases includePayloadLength <;> decide
  refine ⟨?_, ?_, ?_, ?_, ?_, ?_⟩
  · rw [List.length_append, List.length_append, hlength]
    omega
  · have hhead : readUint 2 (front ++ frame ++ back) (front.length + 0) = readUint 2 frame 0 :=
      readUint_mid (by omega)
    exact hhead.trans h.count
  · rw [byteAt_mid (by omega)]
    exact h.step
  · rw [byteAt_mid (by omega)]
    exact h.reserved
  · rintro rfl
    rw [← h.payload rfl]
    exact readUint_mid (by rw [hlength, frameHeaderBytes]; simp)
  · intro heven hpos
    have hlast : front.length + frameHeaderBytes includePayloadLength + samples / 2 - 1 =
        front.length + (frame.length - 1) := by omega
    rw [hlast, byteAt_mid (by omega)]
    exact h.tail heven

/-- The first frame of `samples` behind `front`, and the rest behind it. -/
theorem first_frame {frameSamples : Nat} (includePayloadLength : Bool) {samples : List Int}
    (front : List UInt8) (hpos : 0 < frameSamples) (hshort : frameSamples < 2 ^ 16)
    (hne : samples ≠ []) :
    ∃ frame, frame.length = frameHeaderBytes includePayloadLength +
        (samples.take frameSamples).length / 2 ∧
      front ++ imaFrames frameSamples includePayloadLength samples =
        front ++ frame ++ imaFrames frameSamples includePayloadLength (samples.drop frameSamples) ∧
      FrameAt includePayloadLength (front ++ imaFrames frameSamples includePayloadLength samples)
        front.length (samples.take frameSamples).length
        (imaFrames frameSamples includePayloadLength (samples.drop frameSamples)).length := by
  have htake : samples.take frameSamples ≠ [] := by
    intro hnil
    rcases List.take_eq_nil_iff.1 hnil with h | h
    · omega
    · exact hne h
  have hshape := imaFrame_shape includePayloadLength htake
    (Nat.lt_of_le_of_lt (List.length_take_le _ _) hshort)
  have hframes : front ++ imaFrames frameSamples includePayloadLength samples =
      front ++ imaFrame includePayloadLength (samples.take frameSamples) ++
        imaFrames frameSamples includePayloadLength (samples.drop frameSamples) := by
    rw [imaFrames_cons includePayloadLength hpos hne, List.append_assoc]
  exact ⟨_, hshape.length, hframes, hframes ▸ hshape.placed front _⟩

/-- Only the last chunk of a list is short. -/
theorem length_take_chunk {frameSamples : Nat} (samples : List Int) (hpos : 0 < frameSamples) :
    (samples.take frameSamples).length =
      if (chunks frameSamples (samples.drop frameSamples)).length = 0 then samples.length
      else frameSamples := by
  rw [List.length_take, length_chunks, List.length_drop]
  split
  next hlast =>
    rw [Nat.div_eq_zero_iff] at hlast
    omega
  next hmore =>
    rw [Nat.div_eq_zero_iff] at hmore
    omega

theorem inspectFrames_ok (samples : List Int) (front : List UInt8) (total counted : Nat)
    (hcounted : counted + samples.length = total) :
    inspectFrames (front ++ imaFrames eiadFrameSamples true samples) total
      (chunks eiadFrameSamples samples).length front.length counted =
      .ok ((front ++ imaFrames eiadFrameSamples true samples).length, total) := by
  have hpos : 0 < eiadFrameSamples := by decide
  induction samples using chunks_induction hpos generalizing front counted with
  | nil =>
    rw [chunks_nil hpos, imaFrames, chunks_nil hpos]
    simp only [List.length_nil, Nat.add_zero] at hcounted
    simp [inspectFrames, hcounted]
  | cons samples hne ih =>
    obtain ⟨frame, hframe, hframes, hat⟩ := first_frame true front hpos (by decide) hne
    have hsamples : 0 < samples.length := List.length_pos_iff.2 hne
    have htake := length_take_chunk samples hpos
    have hle : (samples.take eiadFrameSamples).length ≤ eiadFrameSamples := List.length_take_le _ _
    have htotal : (samples.take eiadFrameSamples).length +
        (samples.drop eiadFrameSamples).length = samples.length := by
      rw [← List.length_append, List.take_append_drop]
    have hpositive : (samples.take eiadFrameSamples).length ≠ 0 := by
      rw [htake]
      split <;> omega
    have hnext := ih (front ++ frame) (counted + (samples.take eiadFrameSamples).length) (by omega)
    rw [← hframes, List.length_append, hframe] at hnext
    generalize hm : (samples.take eiadFrameSamples).length = m at *
    generalize hr : (chunks eiadFrameSamples (samples.drop eiadFrameSamples)).length = remaining at *
    generalize heiad : front ++ imaFrames eiadFrameSamples true samples = eiad at *
    have hlength := hat.length
    have hexpected : (if remaining = 0 then total - counted else eiadFrameSamples) = m := by
      rw [htake]
      split <;> omega
    rw [chunks_cons hpos hne, List.length_cons, hr]
    simp only [inspectFrames, hat.count, hat.payload rfl, hexpected, hat.reserved]
    simp only [frameHeaderBytes, if_true] at hlength hnext
    have htail := hat.tail
    simp only [frameHeaderBytes, if_true] at htail
    rw [if_neg (show ¬ eiad.length < front.length + eiadFrameHeaderBytes by
      simp only [eiadFrameHeaderBytes]; omega), if_neg, if_neg, if_neg]
    · rw [Nat.add_assoc]
      exact hnext
    · rintro ⟨hodd, hbits⟩
      exact hbits (htail (by omega) hpositive)
    · simp only [eiadFrameHeaderBytes]
      omega
    · have hstep := hat.step
      omega

theorem length_decodeImaRest (payload : List UInt8) (remaining sampleIndex : Nat)
    (predictor stepIndex : Int) :
    (decodeImaRest payload remaining sampleIndex predictor stepIndex).length = remaining := by
  induction remaining generalizing sampleIndex predictor stepIndex with
  | zero => rfl
  | succ remaining ih => simp only [decodeImaRest, List.length_cons, ih]

theorem length_decodeImaFrame (predictor stepIndex : Int) (payload : List UInt8) {samples : Nat}
    (hpos : samples ≠ 0) : (decodeImaFrame predictor stepIndex payload samples).length = samples := by
  rw [decodeImaFrame, List.length_cons, length_decodeImaRest]
  omega

theorem length_decodeFrames (samples : List Int) (front : List UInt8) :
    (decodeFrames (front ++ imaFrames eiadFrameSamples true samples)
      (chunks eiadFrameSamples samples).length front.length).length = samples.length := by
  have hpos : 0 < eiadFrameSamples := by decide
  induction samples using chunks_induction hpos generalizing front with
  | nil =>
    rw [chunks_nil hpos]
    rfl
  | cons samples hne ih =>
    obtain ⟨frame, hframe, hframes, hat⟩ := first_frame true front hpos (by decide) hne
    have hsamples : 0 < samples.length := List.length_pos_iff.2 hne
    have htotal : (samples.take eiadFrameSamples).length +
        (samples.drop eiadFrameSamples).length = samples.length := by
      rw [← List.length_append, List.take_append_drop]
    have hpositive : (samples.take eiadFrameSamples).length ≠ 0 := by
      rw [List.length_take]
      omega
    have hnext := ih (front ++ frame)
    rw [← hframes, List.length_append, hframe, ← Nat.add_assoc] at hnext
    rw [chunks_cons hpos hne, List.length_cons]
    simp only [decodeFrames, hat.count, hat.payload rfl]
    rw [List.length_append, length_decodeImaFrame _ _ _ hpositive, ← htotal, ← hnext]
    rfl

theorem pcmSamples_length (pcm : List UInt8) : (pcmSamples pcm).length = pcm.length / 2 := by
  induction pcm using pcmSamples.induct with
  | case1 low high rest ih =>
    rw [pcmSamples, List.length_cons, ih, List.length_cons, List.length_cons]
    omega
  | case2 pcm h =>
    match pcm with
    | [] => rfl
    | [_] => simp [pcmSamples]
    | low :: high :: rest => exact absurd rfl (h low high rest)

/-- The fields of the header of the cache. -/
theorem eiadHeader_fields (samples frames : Nat) :
    chop (eiadHeader samples frames) 0 [4, 2, 2, 4, 2, 2, 2, 2, 8, 4] =
      [eiadMagic, leBytes 2 eiadVersion, leBytes 2 eiadHeaderBytes, leBytes 4 ttsSampleRate,
        leBytes 2 1, leBytes 2 4, leBytes 2 eiadFrameSamples, leBytes 2 eiadFrameHeaderBytes,
        leBytes 8 samples, leBytes 4 frames] := by
  refine (eq_flatten_iff ?_).1 ?_ |>.2
  · simp [eiadMagic]
  · simp [eiadHeader]

theorem eiadHeader_length (samples frames : Nat) :
    (eiadHeader samples frames).length = eiadHeaderBytes := by
  simp [eiadHeader, eiadMagic, eiadHeaderBytes]

/-- A field of a header, read from the whole container. -/
theorem read_field {width offset value : Nat} {header body : List UInt8}
    (hfield : slice header offset width = leBytes width value)
    (hinside : offset + width ≤ header.length) (hvalue : value < 256 ^ width) :
    readUint width (header ++ body) offset = value := by
  rw [readUint, slice_append_left hinside, hfield, leNat_leBytes hvalue]

/-- The header of a container of the cache, field by field. -/
structure CacheHeader (eiad : List UInt8) (samples frames : Nat) : Prop where
  whole : eiadHeaderBytes ≤ eiad.length
  magic : eiad.take 4 = eiadMagic
  version : readUint 2 eiad 4 = eiadVersion
  headerBytes : readUint 2 eiad 6 = eiadHeaderBytes
  rate : readUint 4 eiad 8 = ttsSampleRate
  channels : readUint 2 eiad 12 = 1
  bits : readUint 2 eiad 14 = 4
  frameSamples : readUint 2 eiad 16 = eiadFrameSamples
  frameHeaderBytes : readUint 2 eiad 18 = eiadFrameHeaderBytes
  samples : readUint 8 eiad 20 = samples
  frames : readUint 4 eiad 28 = frames

theorem eiadHeader_append {samples frames : Nat} (body : List UInt8) (hsamples : samples < 256 ^ 8)
    (hframes : frames < 256 ^ 4) : CacheHeader (eiadHeader samples frames ++ body) samples frames := by
  have hlength := eiadHeader_length samples frames
  have hfields := eiadHeader_fields samples frames
  generalize eiadHeader samples frames = header at *
  simp only [chop, List.cons.injEq, and_true] at hfields
  obtain ⟨hmagic, hversion, hheader, hrate, hchannels, hbits, hframe, hframeHeader, htotal, hcount⟩ :=
    hfields
  have hinside : ∀ {n : Nat}, n ≤ 32 → n ≤ header.length := fun h => hlength ▸ h
  refine ⟨?_, ?_, read_field hversion (hinside (by decide)) (by decide),
    read_field hheader (hinside (by decide)) (by decide),
    read_field hrate (hinside (by decide)) (by decide),
    read_field hchannels (hinside (by decide)) (by decide),
    read_field hbits (hinside (by decide)) (by decide),
    read_field hframe (hinside (by decide)) (by decide),
    read_field hframeHeader (hinside (by decide)) (by decide),
    read_field htotal (hinside (by decide)) hsamples,
    read_field hcount (hinside (by decide)) hframes⟩
  · rw [List.length_append, hlength]
    exact Nat.le_add_right _ _
  · rw [← hmagic, List.take_append_of_le_length (by rw [hlength]; decide), slice, List.drop_zero]

theorem inspectEiad_ok {samples : List Int} (hpos : 0 < samples.length)
    (hmax : samples.length ≤ ttsSampleRate * maxTtsSeconds) :
    inspectEiad (eiadHeader samples.length (chunks eiadFrameSamples samples).length ++
      imaFrames eiadFrameSamples true samples) =
      .ok ⟨ttsSampleRate, samples.length, (chunks eiadFrameSamples samples).length⟩ := by
  have hcount := length_chunks eiadFrameSamples samples
  have hloop := inspectFrames_ok samples
    (eiadHeader samples.length (chunks eiadFrameSamples samples).length) samples.length 0
    (Nat.zero_add _)
  simp only [ttsSampleRate, maxTtsSeconds] at hmax
  have hframes : (samples.length + eiadFrameSamples - 1) / eiadFrameSamples < 256 ^ 4 := by
    simp only [eiadFrameSamples]
    omega
  have hheader := eiadHeader_append (imaFrames eiadFrameSamples true samples)
    (show samples.length < 256 ^ 8 by omega) (hcount ▸ hframes)
  rw [eiadHeader_length] at hloop
  generalize (chunks eiadFrameSamples samples).length = frames at *
  simp only [eiadFrameSamples] at hcount
  generalize eiadHeader samples.length frames ++ imaFrames eiadFrameSamples true samples = eiad at *
  have hnone : samples.length ≠ 0 := Nat.pos_iff_ne_zero.1 hpos
  simp only [inspectEiad, readU16, readU32, readU64, Nat.not_lt.2 hheader.whole, hheader.magic,
    hheader.version, hheader.headerBytes, hheader.rate, hheader.channels, hheader.bits,
    hheader.frameSamples, hheader.frameHeaderBytes, hheader.samples, hheader.frames, hloop, ← hcount,
    ttsSampleRate, maxTtsSeconds, eiadFrameSamples, hnone, Nat.not_lt.2 hmax, ne_eq,
    not_true_eq_false, or_self, if_false, bind, Except.bind]

theorem length_i16ToLe (samples : List Int) : (samples.flatMap i16ToLe).length = 2 * samples.length := by
  induction samples with
  | nil => rfl
  | cons sample samples ih =>
    rw [List.flatMap_cons, List.length_append, ih, i16ToLe, length_leBytes, List.length_cons]
    omega

theorem decodeEiad_ok {samples : List Int} (hpos : 0 < samples.length)
    (hmax : samples.length ≤ ttsSampleRate * maxTtsSeconds) :
    ∃ pcm, decodeEiad (eiadHeader samples.length (chunks eiadFrameSamples samples).length ++
      imaFrames eiadFrameSamples true samples) = .ok pcm ∧ pcm.length = 2 * samples.length := by
  have hdecoded := length_decodeFrames samples
    (eiadHeader samples.length (chunks eiadFrameSamples samples).length)
  rw [eiadHeader_length] at hdecoded
  refine ⟨_, by rw [decodeEiad, inspectEiad_ok hpos hmax]; rfl, ?_⟩
  rw [length_i16ToLe, hdecoded]

theorem validatePcm_ok {pcm : List UInt8} {samples : Nat} (h : pcm.length = 2 * samples)
    (hpos : 0 < samples) (hmax : samples ≤ ttsSampleRate * maxTtsSeconds) :
    validatePcm pcm = .ok samples := by
  have hne : pcm ≠ [] := by
    rintro rfl
    simp only [List.length_nil] at h
    omega
  have hhalf : pcm.length / 2 = samples := by omega
  rw [validatePcm, if_neg (by rw [not_or]; exact ⟨hne, by omega⟩)]
  simp only [hhalf, if_neg (Nat.not_lt.2 hmax)]

/-! ### The container of the speaker, as the Host checks it -/

theorem inspectDeviceFrames_ok (samples : List Int) (front : List UInt8) (total counted : Nat)
    (hcounted : counted + samples.length = total) :
    inspectDeviceFrames (front ++ imaFrames deviceEiadFrameSamples false samples) total
      (chunks deviceEiadFrameSamples samples).length front.length counted =
      .ok ((front ++ imaFrames deviceEiadFrameSamples false samples).length, total) := by
  have hpos : 0 < deviceEiadFrameSamples := by decide
  induction samples using chunks_induction hpos generalizing front counted with
  | nil =>
    rw [chunks_nil hpos, imaFrames, chunks_nil hpos]
    simp only [List.length_nil, Nat.add_zero] at hcounted
    simp [inspectDeviceFrames, hcounted]
  | cons samples hne ih =>
    obtain ⟨frame, hframe, hframes, hat⟩ := first_frame false front hpos (by decide) hne
    have hsamples : 0 < samples.length := List.length_pos_iff.2 hne
    have htake := length_take_chunk samples hpos
    have htotal : (samples.take deviceEiadFrameSamples).length +
        (samples.drop deviceEiadFrameSamples).length = samples.length := by
      rw [← List.length_append, List.take_append_drop]
    have hpositive : (samples.take deviceEiadFrameSamples).length ≠ 0 := by
      rw [htake]
      split <;> omega
    have hnext := ih (front ++ frame) (counted + (samples.take deviceEiadFrameSamples).length)
      (by omega)
    rw [← hframes, List.length_append, hframe] at hnext
    generalize hm : (samples.take deviceEiadFrameSamples).length = m at *
    generalize hr : (chunks deviceEiadFrameSamples (samples.drop deviceEiadFrameSamples)).length =
      remaining at *
    generalize heiad : front ++ imaFrames deviceEiadFrameSamples false samples = eiad at *
    have hlength := hat.length
    have hexpected : (if remaining = 0 then total - counted else deviceEiadFrameSamples) = m := by
      rw [htake]
      split <;> omega
    have hpayload : (m - 1 + 1) / 2 = m / 2 := by omega
    rw [chunks_cons hpos hne, List.length_cons, hr]
    simp only [inspectDeviceFrames, hat.count, hexpected, hat.reserved, hpayload]
    simp only [frameHeaderBytes, Bool.false_eq_true, if_false] at hlength hnext
    rw [if_neg (show ¬ eiad.length < front.length + deviceEiadFrameHeaderBytes by
      simp only [deviceEiadFrameHeaderBytes]; omega), if_neg, if_neg]
    · rw [Nat.add_assoc]
      exact hnext
    · simp only [deviceEiadFrameHeaderBytes]
      omega
    · have hstep := hat.step
      omega

theorem deviceEiadHeader_fields (samples frames : Nat) :
    chop (deviceEiadHeader samples frames) 0 [4, 1, 1, 4, 2, 2, 4, 2] =
      [eiadMagic, [1], [1], leBytes 4 ttsSampleRate, leBytes 2 deviceEiadFrameSamples,
        leBytes 2 frames, leBytes 4 samples, leBytes 2 deviceEiadHeaderBytes] := by
  refine (eq_flatten_iff ?_).1 ?_ |>.2
  · simp [eiadMagic]
  · simp [deviceEiadHeader]

theorem deviceEiadHeader_length (samples frames : Nat) :
    (deviceEiadHeader samples frames).length = deviceEiadHeaderBytes := by
  simp [deviceEiadHeader, eiadMagic, deviceEiadHeaderBytes]

/-- The container of the speaker for these samples. -/
def deviceEiad (samples : List Int) : List UInt8 :=
  deviceEiadHeader samples.length (chunks deviceEiadFrameSamples samples).length ++
    imaFrames deviceEiadFrameSamples false samples

/-- The header of a device container, field by field. -/
structure DeviceHeader (eiad : List UInt8) (samples frames : Nat) : Prop where
  whole : deviceEiadHeaderBytes ≤ eiad.length
  magic : eiad.take 4 = eiadMagic
  version : byteAt eiad 4 = 1
  channels : byteAt eiad 5 = 1
  rate : readUint 4 eiad 6 = ttsSampleRate
  frameSamples : readUint 2 eiad 10 = deviceEiadFrameSamples
  frames : readUint 2 eiad 12 = frames
  samples : readUint 4 eiad 14 = samples
  headerBytes : readUint 2 eiad 18 = deviceEiadHeaderBytes

theorem deviceEiad_header {samples : List Int}
    (hmax : samples.length ≤ ttsSampleRate * maxTtsSeconds) :
    DeviceHeader (deviceEiad samples) samples.length (chunks deviceEiadFrameSamples samples).length := by
  have hcount := length_chunks deviceEiadFrameSamples samples
  have hlength := deviceEiadHeader_length samples.length (chunks deviceEiadFrameSamples samples).length
  have hfields := deviceEiadHeader_fields samples.length (chunks deviceEiadFrameSamples samples).length
  rw [deviceEiad]
  have hbytes : ∀ body, byteAt (deviceEiadHeader samples.length
      (chunks deviceEiadFrameSamples samples).length ++ body) 4 = 1 ∧
      byteAt (deviceEiadHeader samples.length
        (chunks deviceEiadFrameSamples samples).length ++ body) 5 = 1 := by
    intro body
    exact ⟨rfl, rfl⟩
  generalize (chunks deviceEiadFrameSamples samples).length = frames at *
  generalize deviceEiadHeader samples.length frames = header at *
  generalize imaFrames deviceEiadFrameSamples false samples = body at *
  simp only [ttsSampleRate, maxTtsSeconds] at hmax
  simp only [deviceEiadFrameSamples] at hcount
  simp only [chop, List.cons.injEq, and_true] at hfields
  obtain ⟨hmagic, -, -, hrate, hframe, hframes, htotal, hheader⟩ := hfields
  have hinside : ∀ {n : Nat}, n ≤ 20 → n ≤ header.length := fun h => hlength ▸ h
  refine ⟨?_, ?_, (hbytes body).1, (hbytes body).2, read_field hrate (hinside (by decide)) (by decide),
    read_field hframe (hinside (by decide)) (by decide),
    read_field hframes (hinside (by decide)) (by omega),
    read_field htotal (hinside (by decide)) (by omega),
    read_field hheader (hinside (by decide)) (by decide)⟩
  · rw [List.length_append, hlength]
    exact Nat.le_add_right _ _
  · rw [← hmagic, List.take_append_of_le_length (by rw [hlength]; decide), slice, List.drop_zero]

theorem inspectDeviceEiad_ok {samples : List Int} (hpos : 0 < samples.length)
    (hmax : samples.length ≤ ttsSampleRate * maxTtsSeconds) :
    inspectDeviceEiad (deviceEiad samples) =
      .ok ⟨ttsSampleRate, samples.length, (chunks deviceEiadFrameSamples samples).length⟩ := by
  have hheader := deviceEiad_header hmax
  have hloop := inspectDeviceFrames_ok samples
    (deviceEiadHeader samples.length (chunks deviceEiadFrameSamples samples).length) samples.length 0
    (Nat.zero_add _)
  rw [deviceEiadHeader_length, ← deviceEiad] at hloop
  have hcount := length_chunks deviceEiadFrameSamples samples
  generalize (chunks deviceEiadFrameSamples samples).length = frames at *
  have hnone : samples.length ≠ 0 := Nat.pos_iff_ne_zero.1 hpos
  simp only [inspectDeviceEiad, readU16, readU32, hheader.magic, hheader.version, hheader.channels,
    hheader.rate, hheader.frameSamples, hheader.frames, hheader.samples, hheader.headerBytes,
    Nat.not_lt.2 hheader.whole, Nat.not_lt.2 hmax, hnone, hloop, ← hcount, ne_eq,
    not_true_eq_false, or_self, if_false, bind, Except.bind]

/-! ### The whole way on the Host -/

theorem encodeEiad_ok {pcm : List UInt8} {samples : Nat} (h : pcm.length = 2 * samples)
    (hpos : 0 < samples) (hmax : samples ≤ ttsSampleRate * maxTtsSeconds) :
    encodeEiad pcm = .ok (eiadHeader (pcmSamples pcm).length
      (chunks eiadFrameSamples (pcmSamples pcm)).length ++
        imaFrames eiadFrameSamples true (pcmSamples pcm)) := by
  have hlength : (pcmSamples pcm).length = samples := by
    rw [pcmSamples_length]
    omega
  have hsmall : ¬ 2 ^ 32 ≤ (samples + eiadFrameSamples - 1) / eiadFrameSamples := by
    simp only [ttsSampleRate, maxTtsSeconds, eiadFrameSamples] at hmax ⊢
    omega
  simp only [encodeEiad, validatePcm_ok h hpos hmax, bind, Except.bind, if_neg hsmall,
    encodeFrames_eq true (pcmSamples pcm) (show 0 < eiadFrameSamples by decide) (by decide),
    length_chunks, hlength]

theorem transcodeEiadForDevice_ok {samples : List Int} (hpos : 0 < samples.length)
    (hmax : samples.length ≤ ttsSampleRate * maxTtsSeconds) :
    ∃ decoded : List Int, decoded.length = samples.length ∧
      transcodeEiadForDevice (eiadHeader samples.length (chunks eiadFrameSamples samples).length ++
        imaFrames eiadFrameSamples true samples) = .ok (deviceEiad decoded) := by
  obtain ⟨pcm, hpcm, hlength⟩ := decodeEiad_ok hpos hmax
  have hdecoded : (pcmSamples pcm).length = samples.length := by
    rw [pcmSamples_length]
    omega
  refine ⟨pcmSamples pcm, hdecoded, ?_⟩
  have hcount := length_chunks deviceEiadFrameSamples (pcmSamples pcm)
  have hsmall : ¬ 2 ^ 16 ≤ (samples.length + deviceEiadFrameSamples - 1) / deviceEiadFrameSamples ∧
      ¬ 2 ^ 32 ≤ samples.length := by
    simp only [ttsSampleRate, maxTtsSeconds, deviceEiadFrameSamples] at hmax ⊢
    omega
  have hinspect : inspectDeviceEiad (deviceEiad (pcmSamples pcm)) = _ :=
    inspectDeviceEiad_ok (by omega) (by omega)
  rw [deviceEiad, hcount, hdecoded] at hinspect
  simp only [transcodeEiadForDevice, hpcm, validatePcm_ok hlength hpos hmax, bind, Except.bind,
    if_neg hsmall.1, if_neg hsmall.2,
    encodeFrames_eq false (pcmSamples pcm) (show 0 < deviceEiadFrameSamples by decide) (by decide),
    hinspect]
  rw [deviceEiad, hcount, hdecoded]

/-- What `encode_tts_audio` takes: whole samples, at least one, for no longer than the limit. -/
structure AcceptedPcm (pcm : List UInt8) : Prop where
  whole : pcm.length % 2 = 0
  some : 1 ≤ pcm.length / 2
  short : pcm.length / 2 ≤ 7200000

theorem AcceptedPcm.length {pcm : List UInt8} (h : AcceptedPcm pcm) :
    pcm.length = 2 * (pcm.length / 2) := by
  have hwhole := h.whole
  omega

theorem encodeTtsAudio_ok {pcm : List UInt8} (h : AcceptedPcm pcm) :
    ∃ wav, encodeTtsAudio pcm = .ok ⟨wav,
      eiadHeader (pcmSamples pcm).length (chunks eiadFrameSamples (pcmSamples pcm)).length ++
        imaFrames eiadFrameSamples true (pcmSamples pcm),
      (pcmSamples pcm).length, (chunks eiadFrameSamples (pcmSamples pcm)).length⟩ := by
  have hlength := pcmSamples_length pcm
  have hsome := h.some
  have hshort := h.short
  have hvalid := validatePcm_ok h.length hsome hshort
  have hsmall : ¬ 2 ^ 32 ≤ pcm.length ∧ ¬ 2 ^ 32 ≤ pcm.length + 36 := by
    have heven := h.length
    omega
  have hinspect : inspectEiad (eiadHeader (pcmSamples pcm).length _ ++ _) = _ :=
    inspectEiad_ok (hlength ▸ hsome) (hlength ▸ hshort)
  cases hwav : encodeWav pcm with
  | error error =>
    simp only [encodeWav, hvalid, bind, Except.bind, if_neg hsmall.1, if_neg hsmall.2,
      reduceCtorEq] at hwav
  | ok wav =>
    refine ⟨wav, ?_⟩
    rw [← hlength] at hvalid
    simp only [encodeTtsAudio, hvalid, hwav, encodeEiad_ok h.length hsome hshort, hinspect, bind,
      Except.bind, ne_eq, not_true_eq_false, or_self, if_false]

theorem encodeTtsAudio_accepted {pcm : List UInt8} {artifacts : AudioArtifacts}
    (h : encodeTtsAudio pcm = .ok artifacts) : AcceptedPcm pcm := by
  cases hvalid : validatePcm pcm with
  | error error => simp [encodeTtsAudio, hvalid, bind, Except.bind] at h
  | ok samples =>
    unfold validatePcm at hvalid
    split at hvalid
    · simp at hvalid
    next hwhole =>
      simp only [not_or, not_not] at hwhole
      have hpos := List.length_pos_iff.2 hwhole.1
      dsimp only at hvalid
      split at hvalid
      · simp at hvalid
      next hshort =>
        simp only [ttsSampleRate, maxTtsSeconds] at hshort
        exact ⟨hwhole.2, by omega, by omega⟩

end CodexKeyboard.Audio
