import CodexKeyboard.Device.Codec
import CodexKeyboard.Lan.Canonical

/-! The Host and the keyboard speak the same language: their codecs agree on every byte string. -/

namespace CodexKeyboard.Lan

open Device Schemes.Chunks Schemes.Bytes

variable {c : Crypto} {key packet : List UInt8} {offset value : Nat}

/-! ### Fields -/

theorem wireGetU8_eq (packet : List UInt8) (offset : Nat) : wireGetU8 packet offset = getU8 packet offset := by
  by_cases h : offset < packet.length
  · rw [wireGetU8, getU8, getUint, slice, List.getD_eq_getElem _ _ h, List.drop_eq_getElem_cons h]
    show packet[offset].toNat = leNat [packet[offset]]
    simp [leNat]
  · have hdrop : packet.drop offset = [] := List.drop_eq_nil_of_le (Nat.le_of_not_lt h)
    rw [wireGetU8, getU8, getUint, slice, List.getD_eq_default _ _ (Nat.le_of_not_lt h), hdrop]
    rfl

theorem wireGetU16_eq (h : offset + 2 ≤ packet.length) : wireGetU16 packet offset = getU16 packet offset := by
  have hloop : wireGetU16 packet offset = getLoop packet offset 2 := by
    simp [wireGetU16, wireGetU8, getLoop, List.range_succ]
  rw [hloop, getLoop_eq h]
  rfl

theorem wireGetU32_eq (h : offset + 4 ≤ packet.length) : wireGetU32 packet offset = getU32 packet offset :=
  getLoop_eq h

theorem wireGetU64_eq (h : offset + 8 ≤ packet.length) : wireGetU64 packet offset = getU64 packet offset :=
  getLoop_eq h

theorem wireDecodeIdentity_eq (h : 32 ≤ packet.length) :
    wireDecodeIdentity packet = decodeIdentity packet := by
  simp only [wireDecodeIdentity, decodeIdentity]
  rw [wireGetU8_eq, wireGetU32_eq (by omega), wireGetU32_eq (by omega), wireGetU64_eq (by omega),
    wireGetU64_eq (by omega)]

theorem wirePutU32_eq (offset : Nat) (h : offset + 4 ≤ packet.length) :
    wirePutU32 packet offset value = putU32 packet offset value := putLoop_eq value h

theorem wirePutU64_eq (offset : Nat) (h : offset + 8 ≤ packet.length) :
    wirePutU64 packet offset value = putU64 packet offset value := putLoop_eq value h

@[simp] theorem length_wirePutU32 : (wirePutU32 packet offset value).length = packet.length :=
  length_putLoop _ _ _ _

@[simp] theorem length_wirePutU64 : (wirePutU64 packet offset value).length = packet.length :=
  length_putLoop _ _ _ _

theorem set_eq_putU8 (h : offset < packet.length) :
    packet.set offset (UInt8.ofNat value) = putU8 packet offset value := by
  rw [putU8, putUint, splice, List.set_eq_take_append_cons_drop, if_pos h]
  simp [leBytes]

theorem reservedZero_iff (h : offset + 2 ≤ packet.length) :
    reservedZero packet offset (offset + 2) = true ↔ slice packet offset 2 = [0, 0] := by
  have h0 : offset < packet.length := by omega
  have h1 : offset + 1 < packet.length := by omega
  have hslice : slice packet offset 2 = [packet[offset], packet[offset + 1]] := by
    rw [slice, List.drop_eq_getElem_cons h0, List.drop_eq_getElem_cons h1]
    rfl
  rw [hslice]
  simp [reservedZero, List.range_succ, h0, h1]

/-! ### Authentication -/

theorem orFold_eq_zero {f : Nat → UInt8} {n : Nat} :
    (List.range n).foldl (fun difference index => difference ||| f index) 0 = 0 ↔ ∀ i < n, f i = 0 := by
  induction n with
  | zero => simp
  | succ n ih =>
    rw [List.range_succ, List.foldl_append, List.foldl_cons, List.foldl_nil, UInt8.or_eq_zero_iff, ih]
    constructor
    · rintro ⟨hall, hlast⟩ i hi
      rcases Nat.lt_succ_iff_lt_or_eq.1 hi with hlt | rfl
      · exact hall i hlt
      · exact hlast
    · intro hall
      exact ⟨fun i hi => hall i (Nat.lt_succ_of_lt hi), hall n (Nat.lt_succ_self n)⟩

/-- The comparison in constant time compares the tag. -/
theorem tagDifference_iff {digest : List UInt8} {bodySize : Nat} (hdigest : digest.length = 32)
    (hpacket : packet.length = bodySize + 16) :
    tagDifference digest packet bodySize = 0 ↔
      digest.take playbackTagBytes = packet.drop bodySize := by
  unfold tagDifference
  rw [orFold_eq_zero]
  have hsizes : (digest.take playbackTagBytes).length = (packet.drop bodySize).length := by
    rw [List.length_take, List.length_drop, hdigest, hpacket]
    simp [playbackTagBytes]
  constructor
  · intro hall
    refine List.ext_getElem hsizes fun i h1 h2 => ?_
    have hi : i < 16 := by
      rw [List.length_drop] at h2
      omega
    have heq := UInt8.xor_eq_zero_iff.1 (hall i hi)
    rw [List.getD_eq_getElem _ _ (by omega), List.getD_eq_getElem _ _ (by omega)] at heq
    rw [List.getElem_take, List.getElem_drop, heq]
  · intro heq i hi
    have hi' : i < 16 := hi
    have hget := congrArg (fun l => l.getD i 0) heq
    rw [UInt8.xor_eq_zero_iff]
    simpa [List.getD_eq_getElem?_getD, List.getElem?_take, hi, List.getElem?_drop] using hget

theorem authenticate_iff (h : 16 ≤ packet.length) :
    authenticate c packet key = true ↔ verify c key packet = .ok () := by
  have hlong : ¬packet.length < playbackTagBytes := Nat.not_lt.2 h
  unfold authenticate verify
  rw [if_neg hlong, if_neg hlong]
  simp only [beq_iff_eq]
  rw [tagDifference_iff (c.hmac_length _ _) (by rw [show playbackTagBytes = 16 by rfl]; omega)]
  split
  next heq => simp [heq]
  next hne => simp [hne]

/-- The checks a decoder of the keyboard begins with. -/
theorem wireFramed {length version : Nat} (hlong : 16 ≤ length) {magic : List UInt8} :
    (decide (packet.length ≠ length) || !magicMatches packet magic ||
      wireGetU8 packet 4 != version || !authenticate c packet key) = false ↔
      packet.length = length ∧ slice packet 0 4 = magic ∧ getU8 packet 4 = version ∧
        verify c key packet = .ok () := by
  by_cases hlength : packet.length = length
  · have hauth : authenticate c packet key = true ↔ _ := authenticate_iff (by omega)
    rw [← hauth, ← wireGetU8_eq]
    simp [hlength, magicMatches, slice, and_assoc]
  · simp [hlength]

theorem wireFramed_iff {length : Nat} (hlong : 16 ≤ length) {magic : List UInt8} :
    (decide (packet.length ≠ length) || !magicMatches packet magic ||
      wireGetU8 packet 4 != playbackVersion || !authenticate c packet key) = false ↔
      verifyFixed c packet length magic key = .ok () := by
  rw [wireFramed hlong, verifyFixed_iff]

/-- What a decoder of the keyboard answers. -/
theorem wireGuarded {α : Type} {framed reserved : Bool} {x v : α} {f : α → Bool} :
    (if (framed || reserved) = true then none else if f x = true then some x else none) = some v ↔
      f v = true ∧ framed = false ∧ reserved = false ∧ x = v := by
  cases framed <;> cases reserved <;> simp only [Bool.or_self, Bool.or_true, Bool.true_or, if_true,
    Bool.false_eq_true, if_false, reduceCtorEq, false_and, and_false, true_and]
  by_cases h : f x = true
  · rw [if_pos h, Option.some.injEq]
    constructor
    · rintro rfl
      exact ⟨h, rfl⟩
    · exact And.right
  · rw [if_neg h]
    simp only [reduceCtorEq, false_iff, not_and]
    rintro hv rfl
    exact h hv

theorem verifyFixed_length {length : Nat} {magic : List UInt8}
    (h : verifyFixed c packet length magic key = .ok ()) : packet.length = length :=
  (verifyFixed_iff.1 h).1

/-! ### The checks -/

theorem playbackWireIdentityValid_eq (identity : PlaybackIdentity) :
    playbackWireIdentityValid identity = validIdentity identity := rfl

theorem decide_lt_eq (m n : Nat) : decide (m < n) = !decide (n ≤ m) := by
  by_cases h : m < n
  · simp [h]
  · simp [h, Nat.le_of_not_lt h]

/-- What `encode_playback_request` refuses. -/
theorem request_refused (request : PlaybackRequest) :
    (decide (request.slot < 1) || decide (4 < request.slot) || request.requestGeneration == 0 ||
      request.connectionGeneration == 0 || request.nonce == 0) = !requestOk request := by
  simp only [requestOk, decide_lt_eq, bne, Bool.not_and, Bool.not_not]

/-- What `encode_playback_ack` refuses. -/
theorem ack_refused (ack : PlaybackAck) :
    (!playbackWireIdentityValid ack.identity || decide (3 < ack.status)) = !ackOk ack := by
  simp only [ackOk, playbackWireIdentityValid_eq, decide_lt_eq, Bool.not_and]

/-- What `encode_playback_finished` refuses. -/
theorem finished_refused (finished : PlaybackFinished) :
    (!playbackWireIdentityValid finished.identity || finished.playedSamples == 0) = !finishedOk finished := by
  simp only [finishedOk, playbackWireIdentityValid_eq, bne, Bool.not_and, Bool.not_not]

/-! ### The decoders -/

theorem decodePlaybackRequest_iff {request : PlaybackRequest} :
    decodePlaybackRequest c packet key = some request ↔ decodeRequest c packet key = .ok request := by
  unfold decodePlaybackRequest decodeRequest
  rw [guarded_ok (R := slice packet 6 2 = [0, 0]) Iff.rfl]
  refine (wireGuarded (f := requestOk)).trans (and_congr_right fun _ => ?_)
  rw [wireFramed_iff (by decide)]
  refine and_congr_right fun hverify => ?_
  have hlength : packet.length = 40 := verifyFixed_length hverify
  rw [Bool.not_eq_false', reservedZero_iff (by omega), wireGetU8_eq, wireGetU32_eq (by omega),
    wireGetU32_eq (by omega), wireGetU64_eq (by omega)]

theorem beginOk_iff {start : PlaybackBegin} : beginOk start = true ↔
    hostBeginOk start = true ∧ start.totalSamples ≤ playbackMaximumSamples := by
  simp only [beginOk, hostBeginOk, Bool.and_eq_true, decide_eq_true_eq]
  tauto

theorem decodePlaybackBegin_iff {start : PlaybackBegin} :
    decodePlaybackBegin c packet key = some start ↔
      decodeBegin c packet key = .ok start ∧ start.totalSamples ≤ playbackMaximumSamples := by
  have hguard : decodePlaybackBegin c packet key = some start ↔ beginOk start = true ∧
      verifyFixed c packet beginBytes magicEipb key = .ok () ∧
      (slice packet 6 2 = [0, 0] ∧ slice packet 46 2 = [0, 0]) ∧
      (⟨decodeIdentity packet, getU32 packet 32, getU64 packet 36, getU16 packet 44,
        getU64 packet 48⟩ : PlaybackBegin) = start := by
    unfold decodePlaybackBegin
    rw [Bool.or_assoc]
    refine (wireGuarded (f := beginOk)).trans (and_congr_right fun _ => ?_)
    rw [wireFramed_iff (by decide)]
    refine and_congr_right fun hverify => ?_
    have hlength : packet.length = 72 := verifyFixed_length hverify
    rw [Bool.or_eq_false_iff, Bool.not_eq_false', Bool.not_eq_false', reservedZero_iff (by omega),
      reservedZero_iff (by omega), wireDecodeIdentity_eq (by omega), wireGetU32_eq (by omega),
      wireGetU64_eq (by omega), wireGetU16_eq (by omega), wireGetU64_eq (by omega)]
  rw [hguard, beginOk_iff]
  unfold decodeBegin
  rw [guarded_ok (R := slice packet 6 2 = [0, 0] ∧ slice packet 46 2 = [0, 0]) (by tauto)]
  tauto

theorem decodePlaybackFinishedAck_iff {identity : PlaybackIdentity} {status : Nat} :
    decodePlaybackFinishedAck c packet key = some (identity, status) ↔
      decodeFinishedAck c packet key = .ok (identity, status) := by
  have hhost : decodeFinishedAck c packet key = .ok (identity, status) ↔
      finishedAckOk identity status = true ∧
      verifyFixed c packet finishedAckBytes magicEipk key = .ok () ∧ getU8 packet 7 = 0 ∧
      (decodeIdentity packet, getU8 packet 6) = (identity, status) :=
    guarded_ok (f := fun v : PlaybackIdentity × Nat => finishedAckOk v.1 v.2) Iff.rfl
  have hdevice : decodePlaybackFinishedAck c packet key = some (identity, status) ↔
      finishedAckOk identity status = true ∧
      (decide (packet.length ≠ finishedAckBytes) || !magicMatches packet magicEipk ||
        wireGetU8 packet 4 != playbackVersion || !authenticate c packet key) = false ∧
      (wireGetU8 packet 7 != 0) = false ∧
      (wireDecodeIdentity packet, wireGetU8 packet 6) = (identity, status) := by
    unfold decodePlaybackFinishedAck
    exact wireGuarded (x := (wireDecodeIdentity packet, wireGetU8 packet 6))
      (f := fun v : PlaybackIdentity × Nat => finishedAckOk v.1 v.2)
  rw [hhost, hdevice, wireFramed_iff (by decide)]
  refine and_congr_right fun _ => and_congr_right fun hverify => ?_
  have hlength : packet.length = 48 := verifyFixed_length hverify
  rw [bne_eq_false_iff_eq, wireGetU8_eq, wireGetU8_eq, wireDecodeIdentity_eq (by omega)]

/-- What `decode_mailbox_status` of the keyboard reads. -/
theorem wireMailbox_eq (h : packet.length = 32) :
    (⟨wireGetU8 packet 5, wireGetU8 packet 6, (List.range 4).map fun index => wireGetU8 packet (12 + index)⟩ :
      MailboxStatus) = readMailbox packet := by
  have hslice : slice packet 12 4 = [packet[12], packet[13], packet[14], packet[15]] := by
    rw [slice, List.drop_eq_getElem_cons (by omega), List.drop_eq_getElem_cons (by omega),
      List.drop_eq_getElem_cons (by omega), List.drop_eq_getElem_cons (by omega)]
    rfl
  have hget : ∀ i, (hi : i < packet.length) → wireGetU8 packet i = packet[i].toNat := by
    intro i hi
    rw [wireGetU8, List.getD_eq_getElem _ _ hi]
  simp only [readMailbox, hslice, List.range_succ, List.range_zero, List.nil_append, List.map_cons,
    List.map_nil, List.cons_append, MailboxStatus.mk.injEq]
  refine ⟨wireGetU8_eq _ _, wireGetU8_eq _ _, ?_⟩
  rw [hget _ (by omega), hget _ (by omega), hget _ (by omega), hget _ (by omega)]

theorem wireDecodeMailboxStatus_iff {status : MailboxStatus} {heartbeatSequence : Nat} :
    wireDecodeMailboxStatus c packet key = some (status, heartbeatSequence) ↔
      decodeMailboxStatus c packet key = .ok (status, heartbeatSequence) := by
  have hhost : decodeMailboxStatus c packet key = .ok (status, heartbeatSequence) ↔
      validMailboxStatus status = true ∧ verifyMailbox c packet key = .ok () ∧ getU8 packet 7 = 0 ∧
      (readMailbox packet, getU32 packet 8) = (status, heartbeatSequence) := by
    rw [decodeMailboxStatus_eq]
    exact guarded_ok (f := fun v : MailboxStatus × Nat => validMailboxStatus v.1) Iff.rfl
  have hchecks : ∀ (read : MailboxStatus) (sequence : Nat),
      (if (read.unreadSlots &&& 0xF0 != 0 || decide (4 < read.runningTasks)) = true then none
        else if coverageMatches read = true then some (read, sequence) else none) =
      if validMailboxStatus read = true then some (read, sequence) else none := by
    intro read sequence
    have hvalid : validMailboxStatus read = (!(read.unreadSlots &&& 0xF0 != 0 ||
        decide (4 < read.runningTasks)) && coverageMatches read) := by
      have hrunning : decide (read.runningTasks ≤ 4) = !decide (4 < read.runningTasks) := by
        rw [decide_lt_eq, Bool.not_not]
      rw [validMailboxStatus, hrunning, bne, Bool.not_or, Bool.not_not]
      rfl
    rw [hvalid]
    generalize (read.unreadSlots &&& 0xF0 != 0 || decide (4 < read.runningTasks)) = bad
    cases bad <;> simp
  have hdevice : wireDecodeMailboxStatus c packet key = some (status, heartbeatSequence) ↔
      validMailboxStatus status = true ∧
      (decide (packet.length ≠ mailboxStatusBytes) || !magicMatches packet magicEimb ||
        wireGetU8 packet 4 != mailboxStatusVersion || !authenticate c packet key) = false ∧
      (wireGetU8 packet 7 != 0) = false ∧
      ((⟨wireGetU8 packet 5, wireGetU8 packet 6,
        (List.range 4).map fun index => wireGetU8 packet (12 + index)⟩ : MailboxStatus),
        wireGetU32 packet 8) = (status, heartbeatSequence) := by
    have hread := hchecks ⟨wireGetU8 packet 5, wireGetU8 packet 6,
      (List.range 4).map fun index => wireGetU8 packet (12 + index)⟩ (wireGetU32 packet 8)
    unfold wireDecodeMailboxStatus
    dsimp only at hread ⊢
    rw [hread]
    exact wireGuarded (x := ((⟨wireGetU8 packet 5, wireGetU8 packet 6,
        (List.range 4).map fun index => wireGetU8 packet (12 + index)⟩ : MailboxStatus),
        wireGetU32 packet 8)) (f := fun v : MailboxStatus × Nat => validMailboxStatus v.1)
  rw [hhost, hdevice, wireFramed (by decide), verifyMailbox_iff]
  refine and_congr_right fun _ => and_congr_right fun hframe => ?_
  have hlength : packet.length = 32 := hframe.1
  rw [bne_eq_false_iff_eq, wireGetU8_eq, wireMailbox_eq hlength, wireGetU32_eq (by omega)]

/-! ### Data -/

variable {identity : PlaybackIdentity} {requestNonce plaintextSize : Nat} {payload : List UInt8}

theorem wireDataNonce_eq (offset : Nat) : wireDataNonce offset = dataNonce offset :=
  wirePutU32_eq 0 (by simp)

theorem wireDeriveDataKey_eq (h : requestNonce ≠ 0) :
    wireDeriveDataKey c identity requestNonce key = some (deriveDataKey c identity requestNonce key) := by
  unfold wireDeriveDataKey deriveDataKey dataKeyContext
  rw [if_neg h]
  dsimp only
  -- the outermost write first, so that the lengths under it are those of single-byte writes
  rw [wirePutU64_eq 36 (by simp [keyLabel]), wirePutU64_eq 28 (by simp [keyLabel]),
    wirePutU64_eq 20 (by simp [keyLabel]), wirePutU32_eq 16 (by simp [keyLabel]),
    wirePutU32_eq 12 (by simp [keyLabel]), set_eq_putU8 (by simp [keyLabel])]

theorem slice_zero : slice packet 0 4 = packet.take 4 := by rw [slice, List.drop_zero]

/-- What both decoders of data ask of the packet and its header. -/
structure DataFramed (packet : List UInt8) (requestNonce : Nat) : Prop where
  long : dataHeaderBytes + 1 + playbackTagBytes ≤ packet.length
  magic : slice packet 0 4 = magicEipd
  version : getU8 packet 4 = playbackVersion
  reserved : slice packet 6 2 = [0, 0]
  reserved' : slice packet 38 2 = [0, 0]
  identity : validIdentity (decodeIdentity packet) = true
  nonce : requestNonce ≠ 0
  nonempty : getU16 packet 36 ≠ 0
  bounded : getU16 packet 36 ≤ playbackChunkBytes
  length : packet.length = dataHeaderBytes + getU16 packet 36 + playbackTagBytes

/-- The payload of a framed packet. -/
def openData (c : Crypto) (packet : List UInt8) (requestNonce : Nat) (key : List UInt8) :
    Option (List UInt8) :=
  c.decrypt (deriveDataKey c (decodeIdentity packet) requestNonce key) (dataNonce (getU32 packet 32))
    (packet.take dataHeaderBytes) (slice packet dataHeaderBytes (getU16 packet 36))
    (packet.drop (dataHeaderBytes + getU16 packet 36))

theorem decodeDataBytes_framed :
    decodeDataBytes c packet requestNonce key = .ok (identity, offset, payload) ↔
      DataFramed packet requestNonce ∧ decodeIdentity packet = identity ∧ getU32 packet 32 = offset ∧
        openData c packet requestNonce key = some payload := by
  unfold decodeDataBytes openData
  split
  next hframe =>
    simp only [reduceCtorEq, false_iff, not_and]
    intro h
    simp only [← slice_zero, h.magic, h.version, ne_eq, not_true_eq_false, or_false] at hframe
    exact absurd h.long (Nat.not_le.2 hframe)
  next hframe =>
    simp only [not_or, not_lt, not_not] at hframe
    obtain ⟨hlong, hmagic, hversion⟩ := hframe
    dsimp only
    split
    next hfields =>
      simp only [reduceCtorEq, false_iff, not_and]
      intro h
      simp only [h.reserved, h.reserved', h.identity, h.nonce, h.nonempty, ← h.length, ne_eq,
        not_true_eq_false, Bool.true_eq_false, false_or, or_false] at hfields
      exact absurd h.bounded (Nat.not_le.2 hfields)
    next hfields =>
      simp only [not_or, not_not, Bool.not_eq_false, not_lt] at hfields
      obtain ⟨h6, h38, hvalid, hnonce, hsize, hbound, hlength⟩ := hfields
      have hframed : DataFramed packet requestNonce :=
        ⟨hlong, slice_zero.trans hmagic, hversion, h6, h38, hvalid, hnonce, hsize, hbound, hlength⟩
      split
      next hplain => simp [hplain]
      next plaintext hplain => simp [hplain, hframed]

theorem decodePlaybackData_framed (hsize : playbackChunkBytes ≤ plaintextSize) :
    decodePlaybackData c packet requestNonce key plaintextSize = some (identity, offset, payload) ↔
      DataFramed packet requestNonce ∧ decodeIdentity packet = identity ∧ getU32 packet 32 = offset ∧
        openData c packet requestNonce key = some payload := by
  unfold decodePlaybackData
  dsimp only
  split
  next hbad =>
    simp only [reduceCtorEq, false_iff, not_and]
    intro h
    have hlong : 57 ≤ packet.length := h.long
    have hmagic : magicMatches packet magicEipd = true := by
      rw [magicMatches, ← slice_zero, h.magic]
      rfl
    have hr6 : reservedZero packet 6 8 = true := (reservedZero_iff (by omega)).2 h.reserved
    have hr38 : reservedZero packet 38 40 = true := (reservedZero_iff (by omega)).2 h.reserved'
    have hshort : ¬packet.length < dataHeaderBytes + 1 + playbackTagBytes := Nat.not_lt.2 h.long
    simp [h.nonce, hshort, hmagic, wireGetU8_eq, h.version, hr6, hr38] at hbad
  next hgood =>
    simp only [Bool.or_eq_true, decide_eq_true_eq, not_or, not_lt, Bool.not_eq_true', bne_iff_ne,
      ne_eq, not_not, Bool.not_eq_false, wireGetU8_eq] at hgood
    obtain ⟨⟨⟨⟨⟨hnonce, hlong⟩, hmagic⟩, hversion⟩, hr6⟩, hr38⟩ := hgood
    have hlong' : 57 ≤ packet.length := hlong
    have hmagic' : slice packet 0 4 = magicEipd := by
      rw [slice_zero]
      simpa [magicMatches] using hmagic
    rw [wireGetU16_eq (by omega), wireGetU32_eq (by omega), wireDecodeIdentity_eq (by omega),
      playbackWireIdentityValid_eq]
    split
    next hbad =>
      simp only [reduceCtorEq, false_iff, not_and]
      intro h
      have hroom : ¬plaintextSize < getU16 packet 36 := Nat.not_lt.2 (Nat.le_trans h.bounded hsize)
      have hbounded : ¬playbackChunkBytes < getU16 packet 36 := Nat.not_lt.2 h.bounded
      simp [h.identity, h.nonempty, hroom, hbounded, ← h.length] at hbad
    next hfields =>
      simp only [Bool.or_eq_true, decide_eq_true_eq, not_or, not_lt, Bool.not_eq_true', bne_iff_ne,
        ne_eq, not_not, Bool.not_eq_false, beq_iff_eq] at hfields
      obtain ⟨⟨⟨⟨hvalid, hnonempty⟩, hbounded⟩, -⟩, hlength⟩ := hfields
      have hframed : DataFramed packet requestNonce :=
        ⟨hlong, hmagic', hversion, (reservedZero_iff (by omega)).1 hr6,
          (reservedZero_iff (by omega)).1 hr38, hvalid, hnonce, hnonempty, hbounded, hlength⟩
      have htag : slice packet (dataHeaderBytes + getU16 packet 36) playbackTagBytes =
          packet.drop (dataHeaderBytes + getU16 packet 36) := by
        rw [slice, List.take_of_length_le]
        rw [List.length_drop, hlength]
        omega
      have hopen : decryptDataPayload c packet (getU16 packet 36)
          (deriveDataKey c (decodeIdentity packet) requestNonce key) =
            openData c packet requestNonce key := by
        rw [decryptDataPayload, openData, wireDataNonce_eq, wireGetU32_eq (by omega), htag]
      rw [wireDeriveDataKey_eq hnonce]
      dsimp only
      rw [hopen, Option.map_eq_some_iff]
      simp only [hframed, true_and, Prod.mk.injEq]
      constructor
      · rintro ⟨plaintext, hplain, hidentity, hoffset, rfl⟩
        exact ⟨hidentity, hoffset, hplain⟩
      · rintro ⟨hidentity, hoffset, hplain⟩
        exact ⟨payload, hplain, hidentity, hoffset, rfl⟩

theorem decodePlaybackData_iff (hsize : playbackChunkBytes ≤ plaintextSize) :
    decodePlaybackData c packet requestNonce key plaintextSize = some (identity, offset, payload) ↔
      decodeDataBytes c packet requestNonce key = .ok (identity, offset, payload) :=
  (decodePlaybackData_framed hsize).trans decodeDataBytes_framed.symm

/-! ### The encoders -/

theorem wireSign_eq (h : 16 ≤ packet.length) : wireSign c packet key = some (sign c key packet) := by
  have hlong : ¬packet.length < playbackTagBytes := Nat.not_lt.2 h
  unfold wireSign sign
  rw [if_neg hlong]
  have hroom : (packet.drop (packet.length - playbackTagBytes)).length =
      ((c.hmac key (packet.take (packet.length - playbackTagBytes))).take playbackTagBytes).length := by
    rw [length_tag, List.length_drop]
    show packet.length - (packet.length - 16) = 16
    omega
  dsimp only
  rw [splice, ← hroom, List.length_drop, List.drop_eq_nil_of_le (by omega), List.append_nil]

theorem wireEncodeIdentity_eq {identity : PlaybackIdentity} (h : 32 ≤ packet.length) :
    wireEncodeIdentity packet identity = encodeIdentity packet identity := by
  unfold wireEncodeIdentity encodeIdentity
  dsimp only
  rw [wirePutU64_eq 24 (by simp; omega), wirePutU64_eq 16 (by simp; omega),
    wirePutU32_eq 12 (by simp; omega), wirePutU32_eq 8 (by omega)]

@[simp] theorem length_wireEncodeIdentity {identity : PlaybackIdentity} :
    (wireEncodeIdentity packet identity).length = packet.length := by
  simp [wireEncodeIdentity]

theorem encodePlaybackAck_iff {ack : PlaybackAck} : encodePlaybackAck c ack key = some packet ↔
    ackOk ack = true ∧ packet = encodeAck c ack key := by
  have hmagic : magicEipa.length = 4 := rfl
  unfold encodePlaybackAck
  rw [ack_refused]
  split
  next h =>
    have hrefused : ackOk ack = false := by simpa using h
    simp [hrefused]
  next h =>
    have hok : ackOk ack = true := by simpa using h
    dsimp only
    rw [wireSign_eq (by simp [ackBytes, hmagic]), wirePutU32_eq 32 (by simp [ackBytes, hmagic]),
      wireEncodeIdentity_eq (by simp [ackBytes, hmagic]), set_eq_putU8 (by simp [ackBytes, hmagic]),
      set_eq_putU8 (by simp [ackBytes, hmagic]), set_eq_putU8 (by simp [ackBytes, hmagic])]
    simp only [hok, true_and, Option.some.injEq, encodeAck]
    exact eq_comm

theorem encodePlaybackFinished_iff {finished : PlaybackFinished} :
    encodePlaybackFinished c finished key = some packet ↔
      finishedOk finished = true ∧ packet = encodeFinished c finished key := by
  have hmagic : magicEipf.length = 4 := rfl
  unfold encodePlaybackFinished
  rw [finished_refused]
  split
  next h =>
    have hrefused : finishedOk finished = false := by simpa using h
    simp [hrefused]
  next h =>
    have hok : finishedOk finished = true := by simpa using h
    dsimp only
    rw [wireSign_eq (by simp [finishedBytes, hmagic]), wirePutU64_eq 32 (by simp [finishedBytes, hmagic]),
      wireEncodeIdentity_eq (by simp [finishedBytes, hmagic]),
      set_eq_putU8 (by simp [finishedBytes, hmagic]), set_eq_putU8 (by simp [finishedBytes, hmagic])]
    simp only [hok, true_and, Option.some.injEq, encodeFinished]
    exact eq_comm

theorem encodePlaybackRequest_iff {request : PlaybackRequest} :
    encodePlaybackRequest c request key = some packet ↔
      requestOk request = true ∧ packet = encodeRequest c request key := by
  have hmagic : magicEipr.length = 4 := rfl
  unfold encodePlaybackRequest
  rw [request_refused]
  split
  next h =>
    have hrefused : requestOk request = false := by simpa using h
    simp [hrefused]
  next h =>
    have hok : requestOk request = true := by simpa using h
    dsimp only
    rw [wireSign_eq (by simp [requestBytes, hmagic]), wirePutU64_eq 16 (by simp [requestBytes, hmagic]),
      wirePutU32_eq 12 (by simp [requestBytes, hmagic]), wirePutU32_eq 8 (by simp [requestBytes, hmagic]),
      set_eq_putU8 (by simp [requestBytes, hmagic]), set_eq_putU8 (by simp [requestBytes, hmagic])]
    simp only [hok, true_and, Option.some.injEq, encodeRequest]
    exact eq_comm

/-! ### One language -/

/-- What the two codecs say of one byte string under one key. -/
structure SameLanguage (c : Crypto) (packet key : List UInt8) : Prop where
  request : ∀ request, decodeRequest c packet key = .ok request ↔
    decodePlaybackRequest c packet key = some request
  finishedAck : ∀ identity status, decodeFinishedAck c packet key = .ok (identity, status) ↔
    decodePlaybackFinishedAck c packet key = some (identity, status)
  mailbox : ∀ status heartbeatSequence,
    decodeMailboxStatus c packet key = .ok (status, heartbeatSequence) ↔
      wireDecodeMailboxStatus c packet key = some (status, heartbeatSequence)
  data : ∀ requestNonce plaintextSize identity offset payload, playbackChunkBytes ≤ plaintextSize →
    (decodeDataBytes c packet requestNonce key = .ok (identity, offset, payload) ↔
      decodePlaybackData c packet requestNonce key plaintextSize = some (identity, offset, payload))
  start : ∀ start, decodePlaybackBegin c packet key = some start ↔
    decodeBegin c packet key = .ok start ∧ start.totalSamples ≤ 7200000
  ack : ∀ ack : PlaybackAck, ack.Fits → encodePlaybackAck c ack key = some packet →
    decodeAck c packet key = .ok ack
  finished : ∀ finished : PlaybackFinished, finished.Fits →
    encodePlaybackFinished c finished key = some packet → decodeFinished c packet key = .ok finished

/-- A decoder accepts a value in one encoding only, the one its encoder makes. -/
structure OneEncoding (c : Crypto) (packet key : List UInt8) : Prop where
  request : ∀ request, decodeRequest c packet key = .ok request →
    packet = encodeRequest c request key ∧ encodePlaybackRequest c request key = some packet
  start : ∀ start, decodeBegin c packet key = .ok start → packet = encodeBegin c start key
  data : ∀ requestNonce identity offset payload,
    decodeDataBytes c packet requestNonce key = .ok (identity, offset, payload) →
      encodeDataBytes c identity requestNonce offset payload key = .ok packet
  ack : ∀ ack, decodeAck c packet key = .ok ack →
    packet = encodeAck c ack key ∧ encodePlaybackAck c ack key = some packet
  finished : ∀ finished, decodeFinished c packet key = .ok finished →
    packet = encodeFinished c finished key ∧ encodePlaybackFinished c finished key = some packet
  finishedAck : ∀ identity status, decodeFinishedAck c packet key = .ok (identity, status) →
    packet = encodeFinishedAck c identity status key
  mailbox : ∀ status heartbeatSequence,
    decodeMailboxStatus c packet key = .ok (status, heartbeatSequence) →
      encodeMailboxStatus c status heartbeatSequence key = .ok packet
  wireRequest : ∀ request, decodePlaybackRequest c packet key = some request →
    packet = encodeRequest c request key
  wireStart : ∀ start, decodePlaybackBegin c packet key = some start → packet = encodeBegin c start key
  wireData : ∀ requestNonce plaintextSize identity offset payload, playbackChunkBytes ≤ plaintextSize →
    decodePlaybackData c packet requestNonce key plaintextSize = some (identity, offset, payload) →
      encodeDataBytes c identity requestNonce offset payload key = .ok packet
  wireFinishedAck : ∀ identity status, decodePlaybackFinishedAck c packet key = some (identity, status) →
    packet = encodeFinishedAck c identity status key
  wireMailbox : ∀ status heartbeatSequence,
    wireDecodeMailboxStatus c packet key = some (status, heartbeatSequence) →
      encodeMailboxStatus c status heartbeatSequence key = .ok packet

theorem sameLanguage (c : Crypto) (packet key : List UInt8) : SameLanguage c packet key where
  request _ := decodePlaybackRequest_iff.symm
  finishedAck _ _ := decodePlaybackFinishedAck_iff.symm
  mailbox _ _ := wireDecodeMailboxStatus_iff.symm
  data _ _ _ _ _ hsize := (decodePlaybackData_iff hsize).symm
  start _ := decodePlaybackBegin_iff
  ack _ hfits hencoded := by
    obtain ⟨hok, hpacket⟩ := encodePlaybackAck_iff.1 hencoded
    exact decodeAck_iff.2 ⟨hok, hfits, hpacket⟩
  finished _ hfits hencoded := by
    obtain ⟨hok, hpacket⟩ := encodePlaybackFinished_iff.1 hencoded
    exact decodeFinished_iff.2 ⟨hok, hfits, hpacket⟩

theorem oneEncoding (c : Crypto) (packet key : List UInt8) : OneEncoding c packet key where
  request _ h := by
    obtain ⟨hok, -, hpacket⟩ := decodeRequest_iff.1 h
    exact ⟨hpacket, encodePlaybackRequest_iff.2 ⟨hok, hpacket⟩⟩
  start _ h := (decodeBegin_iff.1 h).2.2
  data _ _ _ _ h := (decodeDataBytes_iff.1 h).2
  ack _ h := by
    obtain ⟨hok, -, hpacket⟩ := decodeAck_iff.1 h
    exact ⟨hpacket, encodePlaybackAck_iff.2 ⟨hok, hpacket⟩⟩
  finished _ h := by
    obtain ⟨hok, -, hpacket⟩ := decodeFinished_iff.1 h
    exact ⟨hpacket, encodePlaybackFinished_iff.2 ⟨hok, hpacket⟩⟩
  finishedAck _ _ h := (decodeFinishedAck_iff.1 h).2.2
  mailbox _ _ h := (decodeMailboxStatus_iff.1 h).2
  wireRequest _ h := (decodeRequest_iff.1 (decodePlaybackRequest_iff.1 h)).2.2
  wireStart _ h := (decodeBegin_iff.1 (decodePlaybackBegin_iff.1 h).1).2.2
  wireData _ _ _ _ _ hsize h := (decodeDataBytes_iff.1 ((decodePlaybackData_iff hsize).1 h)).2
  wireFinishedAck _ _ h := (decodeFinishedAck_iff.1 (decodePlaybackFinishedAck_iff.1 h)).2.2
  wireMailbox _ _ h := (decodeMailboxStatus_iff.1 (wireDecodeMailboxStatus_iff.1 h)).2

/-- Under every key the Host and the keyboard accept the same datagrams with the same values, and each
    value in one encoding. -/
theorem playback_codecs_same_language (c : Crypto) (packet key : List UInt8) :
    SameLanguage c packet key ∧ OneEncoding c packet key :=
  ⟨sameLanguage c packet key, oneEncoding c packet key⟩

end CodexKeyboard.Lan
