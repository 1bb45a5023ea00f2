import CodexKeyboard.SoundSync.Frame

/-! Every logical frame has one encoding on each transport, and the decoders accept no other bytes. -/

namespace CodexKeyboard.SoundSync

open Schemes.Bytes

/-- Decoding undoes encoding, and only encodings are decoded. -/
structure Canonical {α β : Type} (encode : α → Option β) (decode : β → Option α) : Prop where
  decodes : ∀ {value : α} {text : β}, encode value = some text → decode text = some value
  encodes : ∀ {text : β} {value : α}, decode text = some value → encode value = some text

/-- What is handed over with `Ok`. -/
def accepted {α : Type} (answer : SpeakerAssetsProtocolResult × α) : Option α :=
  if answer.1 = .ok then some answer.2 else none

theorem accepted_iff {α : Type} {answer : SpeakerAssetsProtocolResult × α} {value : α} :
    accepted answer = some value ↔ answer = (.ok, value) := by
  obtain ⟨result, handed⟩ := answer
  rw [accepted]
  constructor
  · intro h
    split at h
    next hok =>
      cases Option.some.inj h
      cases hok
      rfl
    next => cases h
  · rintro h
    rw [h]
    rfl

/-! ### Fields -/

variable {encoded body pad : List UInt8} {offset width value : ℕ} {byte : UInt8}

theorem slice_byte_iff (h : offset < encoded.length) :
    slice encoded offset 1 = [byte] ↔ encoded.getD offset 0 = byte := by
  rw [slice_one h 0]
  exact List.singleton_inj

/-- A number is read where its bytes are. -/
theorem slice_le_iff (h : offset + width ≤ encoded.length) (hvalue : value < 256 ^ width) :
    slice encoded offset width = leBytes width value ↔ readLe encoded offset width = value := by
  constructor
  · intro hslice
    rw [readLe, hslice, leNat_leBytes hvalue]
  · rintro rfl
    have hbytes := leBytes_leNat (slice encoded offset width)
    rw [length_slice h] at hbytes
    exact hbytes.symm

theorem readLe_lt (h : offset + width ≤ encoded.length) : readLe encoded offset width < 256 ^ width := by
  have hlt := leNat_lt (slice encoded offset width)
  rwa [length_slice h] at hlt

/-! ### The front of a frame -/

/-- The header up to its checksum. -/
def frameFront (frame : SpeakerAssetsFrame) : List UInt8 :=
  [0x45, 0x49, 0x41, speakerAssetsProtocolVersion, frame.opcode, frame.flags] ++
    leBytes 2 frame.body.length ++ leBytes 4 frame.requestId.toNat ++
    leBytes 4 frame.sessionCookie.toNat ++ leBytes 4 frame.objectOffset.toNat

variable {frame : SpeakerAssetsFrame} {crc32 : List UInt8 → UInt32}

theorem frameHeader_eq (frame : SpeakerAssetsFrame) (crc : UInt32) :
    frameHeader frame crc = frameFront frame ++ leBytes 4 crc.toNat := rfl

theorem length_frameFront (frame : SpeakerAssetsFrame) : (frameFront frame).length = 20 := by
  simp only [frameFront, List.length_append, List.length_cons, List.length_nil, length_leBytes]

/-- The fields of the front, as their bytes. -/
def frontFields (frame : SpeakerAssetsFrame) : List (List UInt8) :=
  [[0x45, 0x49, 0x41], [speakerAssetsProtocolVersion], [frame.opcode], [frame.flags], leBytes 2 frame.body.length,
    leBytes 4 frame.requestId.toNat, leBytes 4 frame.sessionCookie.toNat, leBytes 4 frame.objectOffset.toNat]

theorem front_iff (hlong : 20 ≤ encoded.length) (hbody : frame.body.length < 256 ^ 2) :
    encoded.take 20 = frameFront frame ↔
      encoded.take 3 = [0x45, 0x49, 0x41] ∧ encoded.getD 3 0 = speakerAssetsProtocolVersion ∧
        encoded.getD 4 0 = frame.opcode ∧ encoded.getD 5 0 = frame.flags ∧
        readLe encoded 6 2 = frame.body.length ∧ readLe encoded 8 4 = frame.requestId.toNat ∧
        readLe encoded 12 4 = frame.sessionCookie.toNat ∧ readLe encoded 16 4 = frame.objectOffset.toNat := by
  have hflatten : frameFront frame = (frontFields frame).flatten := by simp [frameFront, frontFields]
  have hfields : encoded.take 20 = (frontFields frame).flatten ↔
      chop encoded 0 [3, 1, 1, 1, 2, 4, 4, 4] = frontFields frame :=
    take_eq_flatten_iff [3, 1, 1, 1, 2, 4, 4, 4] (by simp [frontFields]) hlong
  rw [hflatten, hfields, frontFields]
  simp only [chop, Nat.zero_add, Nat.reduceAdd, List.cons.injEq, and_true]
  rw [slice_byte_iff (by omega), slice_byte_iff (by omega), slice_byte_iff (by omega), slice_le_iff (by omega) hbody,
    slice_le_iff (by omega) frame.requestId.toNat_lt, slice_le_iff (by omega) frame.sessionCookie.toNat_lt,
    slice_le_iff (by omega) frame.objectOffset.toNat_lt]
  rfl

/-! ### The whole of it -/

theorem frameBytes_eq (crc32 : List UInt8 → UInt32) (frame : SpeakerAssetsFrame) : frameBytes crc32 frame =
    frameFront frame ++ (leBytes 4 (crc32 (frameFront frame ++ [0, 0, 0, 0] ++ frame.body)).toNat ++ frame.body) := by
  have hzero : leBytes 4 (0 : UInt32).toNat = [0, 0, 0, 0] := by decide
  rw [frameBytes, frameHeader_eq, frameHeader_eq, hzero, List.append_assoc]

theorem length_frameBytes (crc32 : List UInt8 → UInt32) (frame : SpeakerAssetsFrame) :
    (frameBytes crc32 frame).length = speakerAssetsFrameHeaderBytes + frame.body.length := by
  rw [frameBytes_eq, List.length_append, List.length_append, length_frameFront, length_leBytes, ← Nat.add_assoc]
  rfl

/-- A buffer is its first 20 bytes, the four of the checksum, the body and what is behind it. -/
theorem frame_parts (encoded : List UInt8) (width : ℕ) : encoded =
    encoded.take 20 ++ (slice encoded 20 4 ++ (slice encoded 24 width ++ encoded.drop (24 + width))) := by
  have hheader : encoded.drop 24 = (encoded.drop 20).drop 4 := by rw [List.drop_drop]
  rw [slice, slice, ← List.drop_drop, List.take_append_drop, hheader, List.take_append_drop, List.take_append_drop]

theorem word_toNat {n : ℕ} (h : n < 256 ^ 4) : (UInt32.ofNat n).toNat = n := UInt32.toNat_ofNat_of_lt' h

/-- The fields of the bytes of a frame. -/
structure ReadsAs (encoded : List UInt8) (frame : SpeakerAssetsFrame) (crc : UInt32) (pad : List UInt8) : Prop where
  length : encoded.length = speakerAssetsFrameHeaderBytes + frame.body.length + pad.length
  front : encoded.take 20 = frameFront frame
  checksum : readLe encoded 20 4 = crc.toNat
  body : slice encoded 24 frame.body.length = frame.body
  pad : encoded.drop (24 + frame.body.length) = pad

theorem readsAs_append (frame : SpeakerAssetsFrame) (crc : UInt32) (pad : List UInt8) :
    ReadsAs (frameFront frame ++ (leBytes 4 crc.toNat ++ (frame.body ++ pad))) frame crc pad := by
  have hfront := length_frameFront frame
  have hcrc : (leBytes 4 crc.toNat).length = 4 := length_leBytes _ _
  have hheader : (frameFront frame ++ leBytes 4 crc.toNat).length = 24 := by
    rw [List.length_append, hfront, hcrc]
  constructor
  · rw [List.length_append, List.length_append, List.length_append, hfront, hcrc, speakerAssetsFrameHeaderBytes]
    omega
  · exact List.take_left' hfront
  · rw [readLe, ← hfront, slice_append_right (Nat.le_refl _), Nat.sub_self, slice_append_here hcrc,
      leNat_leBytes crc.toNat_lt]
  · rw [← List.append_assoc, ← hheader, slice_append_right (Nat.le_refl _), Nat.sub_self, slice_append_here rfl]
  · rw [← List.append_assoc, ← hheader, ← List.drop_drop, List.drop_left, List.drop_left]

/-- What the decoders accept: the bytes of a frame that may be sent, and zeros behind them when the size is fixed. -/
theorem decodeFramePrefix_iff {maximumBodyBytes : ℕ} (hmaximum : maximumBodyBytes < 256 ^ 2) (padded : Bool) :
    decodeFramePrefix crc32 encoded maximumBodyBytes padded = (.ok, frame) ↔
      (frame.requestId ≠ 0 ∧ flagsAreValid frame.flags = true ∧ frame.body.length ≤ maximumBodyBytes) ∧
        ∃ pad, encoded = frameBytes crc32 frame ++ pad ∧ pad.all (· == 0) = true ∧ (padded = false → pad = []) := by
  constructor
  · intro h
    have hok : (decodeFramePrefix crc32 encoded maximumBodyBytes padded).1 = .ok := by rw [h]
    have hframe : (decodeFramePrefix crc32 encoded maximumBodyBytes padded).2 = frame := by rw [h]
    unfold decodeFramePrefix at hok hframe
    dsimp only at hok hframe
    split_ifs at hok hframe with hshort hmagic hversion hflags hbody hsize hpadding hid hcrc
    rw [Bool.or_eq_true, Bool.and_eq_true, Bool.and_eq_true, not_or, bne_iff_ne, decide_eq_true_iff] at hsize
    have hfits : speakerAssetsFrameHeaderBytes + readLe encoded 6 2 ≤ encoded.length := by
      cases padded with
      | true => exact Nat.le_of_not_lt fun hlt => hsize.2 ⟨rfl, hlt⟩
      | false => exact Nat.le_of_eq (not_not.1 fun hne => hsize.1 ⟨rfl, hne⟩).symm
    have hlong : 24 + readLe encoded 6 2 ≤ encoded.length := hfits
    have hexact : padded = false → encoded.drop (24 + readLe encoded 6 2) = [] := by
      intro hunpadded
      have hsame := not_not.1 fun hne => hsize.1 ⟨by rw [hunpadded]; rfl, hne⟩
      exact List.drop_eq_nil_of_le (Nat.le_of_eq hsame)
    have hlength : (slice encoded speakerAssetsFrameHeaderBytes (readLe encoded 6 2)).length = readLe encoded 6 2 :=
      length_slice hfits
    subst hframe
    refine ⟨⟨hid, by simpa using hflags, ?_⟩, encoded.drop (24 + readLe encoded 6 2), ?_, ?_, ?_⟩
    · rw [hlength]
      exact Nat.le_of_not_lt hbody
    · have hfront : encoded.take 20 = frameFront
          { opcode := encoded.getD 4 0, flags := encoded.getD 5 0, requestId := UInt32.ofNat (readLe encoded 8 4)
            sessionCookie := UInt32.ofNat (readLe encoded 12 4), objectOffset := UInt32.ofNat (readLe encoded 16 4)
            body := slice encoded speakerAssetsFrameHeaderBytes (readLe encoded 6 2) } := by
        refine (front_iff (by omega) ?_).2 ⟨not_not.1 hmagic, not_not.1 hversion, rfl, rfl, hlength.symm, ?_, ?_, ?_⟩
        · rw [hlength]
          exact readLe_lt (by omega)
        · exact (word_toNat (readLe_lt (by omega))).symm
        · exact (word_toNat (readLe_lt (by omega))).symm
        · exact (word_toNat (readLe_lt (by omega))).symm
      have hchecksum := not_not.1 hcrc
      rw [frameBytes_eq, ← hfront]
      refine (frame_parts encoded (readLe encoded 6 2)).trans ?_
      rw [(slice_le_iff (by omega) (UInt32.toNat_lt _)).2 hchecksum.symm]
      simp only [List.append_assoc]
      rfl
    · cases padded with
      | true =>
        rw [Bool.true_and, Bool.not_eq_true, ← Bool.not_eq_true', List.not_any_eq_all_not] at hpadding
        simpa [speakerAssetsFrameHeaderBytes] using hpadding
      | false =>
        rw [hexact rfl]
        rfl
    · exact hexact
  · rintro ⟨⟨hid, hflags, hbody⟩, pad, rfl, hzero, hpad⟩
    rw [frameBytes_eq, List.append_assoc, List.append_assoc]
    have hreads := readsAs_append frame (crc32 (frameFront frame ++ [0, 0, 0, 0] ++ frame.body)) pad
    generalize hencoded : frameFront frame ++
      (leBytes 4 (crc32 (frameFront frame ++ [0, 0, 0, 0] ++ frame.body)).toNat ++ (frame.body ++ pad)) =
        encoded at hreads ⊢
    have hlength : encoded.length = 24 + frame.body.length + pad.length := hreads.length
    obtain ⟨hmagic, hversion, hopcode, hflag, hlen, hreq, hcookie, hoffset⟩ :=
      (front_iff (by omega) (hbody.trans_lt hmaximum)).1 hreads.front
    unfold decodeFramePrefix
    dsimp only
    rw [hlen, hopcode, hflag, hreq, hcookie, hoffset, hversion, hmagic, UInt32.ofNat_toNat, UInt32.ofNat_toNat,
      UInt32.ofNat_toNat, hreads.checksum, hreads.front]
    have hbodyRead : slice encoded speakerAssetsFrameHeaderBytes frame.body.length = frame.body := hreads.body
    have hpadRead : encoded.drop (speakerAssetsFrameHeaderBytes + frame.body.length) = pad := hreads.pad
    rw [hbodyRead, hreads.body, hpadRead]
    have hlong : ¬ encoded.length < speakerAssetsFrameHeaderBytes := by
      rw [hlength, speakerAssetsFrameHeaderBytes]
      omega
    rw [if_neg hlong, if_neg (by simp), if_neg (by simp), if_neg (by simp [hflags]), if_neg (Nat.not_lt.2 hbody)]
    rw [if_neg, if_neg, if_neg hid, if_neg (by simp)]
    · cases padded with
      | true =>
        rw [Bool.true_and, List.any_eq_true]
        rintro ⟨byte, hbyte, hne⟩
        exact bne_iff_ne.1 hne (beq_iff_eq.1 (List.all_eq_true.1 hzero byte hbyte))
      | false => simp
    · cases padded with
      | true =>
        simp only [Bool.not_true, Bool.false_and, Bool.true_and, Bool.false_or, decide_eq_true_eq, Nat.not_lt, hlength,
          speakerAssetsFrameHeaderBytes]
        omega
      | false =>
        rw [hpad rfl, List.length_nil, Nat.add_zero] at hlength
        simp [hlength, speakerAssetsFrameHeaderBytes]

theorem validateFrameForEncoding_ok {maximumBodyBytes : ℕ} :
    validateFrameForEncoding frame maximumBodyBytes = .ok ↔
      frame.requestId ≠ 0 ∧ flagsAreValid frame.flags = true ∧ frame.body.length ≤ maximumBodyBytes := by
  rw [validateFrameForEncoding]
  split_ifs with hid hbody hflags
  · simp [hid]
  · simp [Nat.not_le.2 hbody]
  · simp [hid, hflags, Nat.le_of_not_lt hbody]
  · simp [hflags]

theorem encodeUsb_iff : encodeSpeakerAssetsUsbFrame crc32 frame = (.ok, encoded) ↔
    validateFrameForEncoding frame speakerAssetsUsbFrameBodyBytes = .ok ∧
      frameBytes crc32 frame ++ List.replicate (speakerAssetsUsbFrameBodyBytes - frame.body.length) 0 = encoded := by
  rw [encodeSpeakerAssetsUsbFrame]
  split
  next hvalid => simp [hvalid]
  next hrefused =>
    constructor
    · intro h
      exact absurd (Prod.mk.inj h).1 hrefused
    · rintro ⟨hvalid, -⟩
      exact absurd hvalid hrefused

theorem encodeWifi_iff : encodeSpeakerAssetsWifiFrame crc32 frame = (.ok, encoded) ↔
    validateFrameForEncoding frame speakerAssetsWifiFrameBodyBytes = .ok ∧ frameBytes crc32 frame = encoded := by
  rw [encodeSpeakerAssetsWifiFrame]
  split
  next hvalid => simp [hvalid]
  next hrefused =>
    constructor
    · intro h
      exact absurd (Prod.mk.inj h).1 hrefused
    · rintro ⟨hvalid, -⟩
      exact absurd hvalid hrefused

/-- A USB report of 63 bytes is a frame exactly when it is the encoding of that frame. -/
theorem usb_iff : decodeSpeakerAssetsUsbFrame crc32 encoded = (.ok, frame) ↔
    encodeSpeakerAssetsUsbFrame crc32 frame = (.ok, encoded) := by
  rw [encodeUsb_iff, validateFrameForEncoding_ok, decodeSpeakerAssetsUsbFrame]
  constructor
  · intro h
    have hsize : encoded.length = speakerAssetsUsbFrameBytes := by
      by_contra hne
      rw [if_pos hne] at h
      cases (Prod.mk.inj h).1
    rw [if_neg (not_not.2 hsize)] at h
    obtain ⟨hvalid, pad, hencoded, hzero, -⟩ := (decodeFramePrefix_iff (by decide) true).1 h
    refine ⟨hvalid, ?_⟩
    have hlength := congrArg List.length hencoded
    rw [List.length_append, length_frameBytes, hsize] at hlength
    have hpad : pad = List.replicate (speakerAssetsUsbFrameBodyBytes - frame.body.length) 0 := by
      refine List.eq_replicate_iff.2 ⟨?_, fun byte hbyte => beq_iff_eq.1 (List.all_eq_true.1 hzero byte hbyte)⟩
      rw [speakerAssetsUsbFrameBodyBytes]
      omega
    rw [← hpad, hencoded]
  · rintro ⟨hvalid, rfl⟩
    have hsize : (frameBytes crc32 frame ++
        List.replicate (speakerAssetsUsbFrameBodyBytes - frame.body.length) 0).length = speakerAssetsUsbFrameBytes := by
      have hbody := hvalid.2.2
      rw [List.length_append, length_frameBytes, List.length_replicate]
      rw [speakerAssetsUsbFrameBodyBytes] at hbody ⊢
      have hheader : speakerAssetsFrameHeaderBytes ≤ speakerAssetsUsbFrameBytes := by decide
      omega
    rw [if_neg (not_not.2 hsize)]
    exact (decodeFramePrefix_iff (by decide) true).2 ⟨hvalid, _, rfl, by simp, by simp⟩

/-- A Wi-Fi payload is a frame exactly when it is the encoding of that frame. -/
theorem wifi_iff : decodeSpeakerAssetsWifiFrame crc32 encoded = (.ok, frame) ↔
    encodeSpeakerAssetsWifiFrame crc32 frame = (.ok, encoded) := by
  rw [encodeWifi_iff, validateFrameForEncoding_ok, decodeSpeakerAssetsWifiFrame]
  constructor
  · intro h
    have hsize : ¬ speakerAssetsWifiFrameMaxBytes < encoded.length := by
      intro hlt
      rw [if_pos hlt] at h
      cases (Prod.mk.inj h).1
    rw [if_neg hsize] at h
    obtain ⟨hvalid, pad, hencoded, -, hpad⟩ := (decodeFramePrefix_iff (by decide) false).1 h
    rw [hpad rfl, List.append_nil] at hencoded
    exact ⟨hvalid, hencoded.symm⟩
  · rintro ⟨hvalid, rfl⟩
    have hsize : ¬ speakerAssetsWifiFrameMaxBytes < (frameBytes crc32 frame).length := by
      have hbody := hvalid.2.2
      rw [length_frameBytes, Nat.not_lt]
      rw [speakerAssetsWifiFrameBodyBytes] at hbody
      have hheader : speakerAssetsFrameHeaderBytes ≤ speakerAssetsWifiFrameMaxBytes := by decide
      omega
    rw [if_neg hsize]
    exact (decodeFramePrefix_iff (by decide) false).2 ⟨hvalid, [], (List.append_nil _).symm, rfl, fun _ => rfl⟩

/-- Both transports are canonical for logical frames, whatever the checksum is. -/
theorem frames_canonical (crc32 : List UInt8 → UInt32) :
    Canonical (fun frame => accepted (encodeSpeakerAssetsUsbFrame crc32 frame))
        (fun encoded => accepted (decodeSpeakerAssetsUsbFrame crc32 encoded)) ∧
      Canonical (fun frame => accepted (encodeSpeakerAssetsWifiFrame crc32 frame))
        (fun encoded => accepted (decodeSpeakerAssetsWifiFrame crc32 encoded)) := by
  refine ⟨⟨?_, ?_⟩, ⟨?_, ?_⟩⟩
  · intro frame encoded h
    exact accepted_iff.2 (usb_iff.2 (accepted_iff.1 h))
  · intro encoded frame h
    exact accepted_iff.2 (usb_iff.1 (accepted_iff.1 h))
  · intro frame encoded h
    exact accepted_iff.2 (wifi_iff.2 (accepted_iff.1 h))
  · intro encoded frame h
    exact accepted_iff.2 (wifi_iff.1 (accepted_iff.1 h))

end CodexKeyboard.SoundSync
