import CodexKeyboard.Lan.Codec

/-! Every datagram has one encoding: the Host's decoders accept exactly what its encoders make of a
    valid value. -/

namespace CodexKeyboard.Lan

open Schemes.Chunks Schemes.Bytes

variable {c : Crypto} {key packet body : List UInt8}

/-! ### The ranges of the field types -/

structure PlaybackIdentity.Fits (identity : PlaybackIdentity) : Prop where
  slot : identity.slot < 256 ^ 1
  requestGeneration : identity.requestGeneration < 256 ^ 4
  connectionGeneration : identity.connectionGeneration < 256 ^ 4
  summaryGeneration : identity.summaryGeneration < 256 ^ 8
  lease : identity.lease < 256 ^ 8

structure PlaybackRequest.Fits (request : PlaybackRequest) : Prop where
  slot : request.slot < 256 ^ 1
  requestGeneration : request.requestGeneration < 256 ^ 4
  connectionGeneration : request.connectionGeneration < 256 ^ 4
  nonce : request.nonce < 256 ^ 8

structure PlaybackBegin.Fits (start : PlaybackBegin) : Prop where
  identity : start.identity.Fits
  totalBytes : start.totalBytes < 256 ^ 4
  totalSamples : start.totalSamples < 256 ^ 8
  chunkBytes : start.chunkBytes < 256 ^ 2
  requestNonce : start.requestNonce < 256 ^ 8

structure PlaybackAck.Fits (ack : PlaybackAck) : Prop where
  identity : ack.identity.Fits
  status : ack.status < 256 ^ 1
  nextOffset : ack.nextOffset < 256 ^ 4

structure PlaybackFinished.Fits (finished : PlaybackFinished) : Prop where
  identity : finished.identity.Fits
  playedSamples : finished.playedSamples < 256 ^ 8

structure MailboxStatus.Fits (status : MailboxStatus) : Prop where
  unreadSlots : status.unreadSlots < 256 ^ 1
  runningTasks : status.runningTasks < 256 ^ 1
  slots : status.coverageBySlot.length = 4
  coverage : ∀ coverage ∈ status.coverageBySlot, coverage < 256 ^ 1

/-! ### Fields -/

variable {offset width value : Nat}

theorem getUint_lt (h : offset + width ≤ packet.length) : getUint width packet offset < 256 ^ width := by
  have hlt := leNat_lt (slice packet offset width)
  rwa [length_slice h] at hlt

/-- A field holds the bytes of its value. -/
theorem slice_getUint (h : offset + width ≤ packet.length) :
    slice packet offset width = leBytes width (getUint width packet offset) := by
  have hbytes := leBytes_leNat (slice packet offset width)
  rw [length_slice h] at hbytes
  exact hbytes.symm

theorem getUint_of_slice (hvalue : value < 256 ^ width)
    (h : slice packet offset width = leBytes width value) : getUint width packet offset = value := by
  rw [getUint, h, leNat_leBytes hvalue]

/-- Reading a field is reading its bytes. -/
theorem getUint_iff (h : offset + width ≤ packet.length) : getUint width packet offset = value ↔
    value < 256 ^ width ∧ slice packet offset width = leBytes width value := by
  constructor
  · rintro rfl
    exact ⟨getUint_lt h, slice_getUint h⟩
  · rintro ⟨hvalue, hslice⟩
    exact getUint_of_slice hvalue hslice

/-- The five fields of an identity. -/
theorem decodeIdentity_iff {identity : PlaybackIdentity} (h : 32 ≤ packet.length) :
    decodeIdentity packet = identity ↔ identity.Fits ∧
      slice packet 5 1 = leBytes 1 identity.slot ∧
      slice packet 8 4 = leBytes 4 identity.requestGeneration ∧
      slice packet 12 4 = leBytes 4 identity.connectionGeneration ∧
      slice packet 16 8 = leBytes 8 identity.summaryGeneration ∧
      slice packet 24 8 = leBytes 8 identity.lease := by
  obtain ⟨slot, request, connection, summary, lease⟩ := identity
  simp (disch := omega) only [decodeIdentity, PlaybackIdentity.mk.injEq, getU8, getU32, getU64,
    getUint_iff]
  constructor
  · rintro ⟨⟨h1, h1'⟩, ⟨h2, h2'⟩, ⟨h3, h3'⟩, ⟨h4, h4'⟩, h5, h5'⟩
    exact ⟨⟨h1, h2, h3, h4, h5⟩, h1', h2', h3', h4', h5'⟩
  · rintro ⟨⟨h1, h2, h3, h4, h5⟩, h1', h2', h3', h4', h5'⟩
    exact ⟨⟨h1, h1'⟩, ⟨h2, h2'⟩, ⟨h3, h3'⟩, ⟨h4, h4'⟩, h5, h5'⟩

/-! ### Signed packets -/

/-- A body under its tag. -/
def signed (c : Crypto) (key body : List UInt8) : List UInt8 :=
  body ++ (c.hmac key body).take playbackTagBytes

theorem length_tag (c : Crypto) (key body : List UInt8) :
    ((c.hmac key body).take playbackTagBytes).length = 16 := by
  rw [List.length_take, c.hmac_length]
  rfl

theorem length_signed (c : Crypto) (key body : List UInt8) : (signed c key body).length = body.length + 16 := by
  rw [signed, List.length_append, length_tag]

theorem sign_eq (body : List UInt8) {room : List UInt8} (hroom : room.length = 16) :
    sign c key (body ++ room) = signed c key body := by
  have hsplit : (body ++ room).length - playbackTagBytes = body.length := by
    rw [List.length_append, hroom]
    exact Nat.add_sub_cancel _ _
  have hroom' : room.length = ((c.hmac key body).take playbackTagBytes).length := by
    rw [hroom, length_tag]
  simp only [sign, hsplit, List.take_left']
  rw [splice_append_right (Nat.le_refl _), Nat.sub_self, splice_here hroom', signed]

theorem verify_append {tag : List UInt8} (htag : tag.length = 16) :
    verify c key (body ++ tag) = .ok () ↔ body ++ tag = signed c key body := by
  have hsplit : (body ++ tag).length - playbackTagBytes = body.length := by
    rw [List.length_append, htag]
    exact Nat.add_sub_cancel _ _
  have hlong : ¬(body ++ tag).length < playbackTagBytes := by
    rw [List.length_append, htag]
    exact Nat.not_lt.2 (Nat.le_add_left _ _)
  unfold verify
  rw [if_neg hlong]
  simp only [hsplit, List.take_left', List.drop_left', signed, List.append_cancel_left_eq]
  split
  next h => simp [h]
  next h => simp [Ne.symm h]

/-- A packet of `segments` under their tag, field by field. -/
theorem signed_iff {segments : List (List UInt8)} {ls : List Nat}
    (hls : segments.map List.length = ls) (hlength : packet.length = ls.sum + 16) :
    packet = signed c key segments.flatten ↔
      chop packet 0 ls = segments ∧ verify c key packet = .ok () := by
  obtain ⟨body, tag, rfl, hbody⟩ : ∃ body tag, packet = body ++ tag ∧ body.length = ls.sum :=
    ⟨packet.take ls.sum, packet.drop ls.sum, (List.take_append_drop _ _).symm, by simp [hlength]⟩
  have htag : tag.length = 16 := by
    rw [List.length_append, hbody] at hlength
    omega
  rw [verify_append htag, chop_append_left _ _ _ _ (by omega)]
  constructor
  · intro h
    have hsame : body = segments.flatten := by
      refine (List.append_inj h ?_).1
      rw [hbody, List.length_flatten, hls]
    exact ⟨((eq_flatten_iff hls).1 hsame).2, by rw [hsame] at h ⊢; exact h⟩
  · rintro ⟨hchop, hsigned⟩
    rw [hsigned, (eq_flatten_iff hls).2 ⟨hbody, hchop⟩]

theorem verifyFixed_iff {length : Nat} {magic : List UInt8} :
    verifyFixed c packet length magic key = .ok () ↔ packet.length = length ∧ slice packet 0 4 = magic ∧
      getU8 packet 4 = playbackVersion ∧ verify c key packet = .ok () := by
  unfold verifyFixed
  split
  next h =>
    simp only [reduceCtorEq, false_iff, not_and]
    intro hlength hmagic hversion
    simp only [slice, List.drop_zero] at hmagic
    simp [hlength, hmagic, hversion] at h
  next h =>
    simp only [not_or, not_not] at h
    simp [h.1, h.2.1, h.2.2, slice]

/-- A decoder verifies the packet, then checks its reserved bytes and the value it has read. -/
theorem guarded_ok {α : Type} {check : Except PlaybackWireError Unit} {bad R : Prop}
    [Decidable bad] {error : PlaybackWireError} {read v : α} {f : α → Bool}
    (hbad : bad ↔ ¬R ∨ f read = false) :
    (do check; if bad then .error error else .ok read) = .ok v ↔
      f v = true ∧ check = .ok () ∧ R ∧ read = v := by
  cases check with
  | error e => simp [bind, Except.bind]
  | ok u =>
    have hiff : ¬bad ↔ R ∧ f read = true := by
      rw [hbad]
      simp
    by_cases h : bad
    · simp only [bind, Except.bind, if_pos h, reduceCtorEq, false_iff, not_and]
      rintro hok _ hreserved rfl
      exact absurd h (hiff.2 ⟨hreserved, hok⟩)
    · obtain ⟨hreserved, hok⟩ := hiff.1 h
      simp only [bind, Except.bind, if_neg h, Except.ok.injEq, hreserved, true_and]
      constructor
      · rintro rfl
        exact ⟨hok, rfl⟩
      · exact And.right

/-- The shape all fixed datagrams share: the packet is of its length and begins with its magic and
    version, its fields read back as the value, and the tag is over all of it. -/
theorem framed_iff {segments : List (List UInt8)} {ls : List Nat} {magic : List UInt8}
    {length version : Nat} {fields fits : Prop} (hls : segments.map List.length = ls)
    (hsum : length = ls.sum + 16)
    (hfields : packet.length = length → (fields ∧ slice packet 0 4 = magic ∧
      getU8 packet 4 = version ↔ fits ∧ chop packet 0 ls = segments)) :
    (packet.length = length ∧ slice packet 0 4 = magic ∧ getU8 packet 4 = version ∧
      verify c key packet = .ok ()) ∧ fields ↔ fits ∧ packet = signed c key segments.flatten := by
  constructor
  · rintro ⟨⟨hlength, hmagic, hversion, hverify⟩, hread⟩
    obtain ⟨hfits, hchop⟩ := (hfields hlength).1 ⟨hread, hmagic, hversion⟩
    exact ⟨hfits, (signed_iff hls (hlength.trans hsum)).2 ⟨hchop, hverify⟩⟩
  · rintro ⟨hfits, hpacket⟩
    have hlength : packet.length = length := by
      rw [hpacket, length_signed, List.length_flatten, hls, hsum]
    obtain ⟨hchop, hverify⟩ := (signed_iff hls (hlength.trans hsum)).1 hpacket
    obtain ⟨hread, hmagic, hversion⟩ := (hfields hlength).2 ⟨hfits, hchop⟩
    exact ⟨⟨hlength, hmagic, hversion, hverify⟩, hread⟩

theorem fixed_iff {segments : List (List UInt8)} {ls : List Nat} {magic : List UInt8}
    {length : Nat} {fields fits : Prop} (hls : segments.map List.length = ls)
    (hsum : length = ls.sum + 16)
    (hfields : packet.length = length → (fields ∧ slice packet 0 4 = magic ∧
      getU8 packet 4 = playbackVersion ↔ fits ∧ chop packet 0 ls = segments)) :
    verifyFixed c packet length magic key = .ok () ∧ fields ↔
      fits ∧ packet = signed c key segments.flatten := by
  rw [verifyFixed_iff]
  exact framed_iff hls hsum hfields

theorem version_lt : playbackVersion < 256 ^ 1 := by decide

/-! ### Requests -/

def requestSegments (request : PlaybackRequest) : List (List UInt8) :=
  [magicEipr, leBytes 1 playbackVersion, leBytes 1 request.slot, [0, 0],
   leBytes 4 request.requestGeneration, leBytes 4 request.connectionGeneration, leBytes 8 request.nonce]

theorem encodeRequest_eq (request : PlaybackRequest) :
    encodeRequest c request key = signed c key (requestSegments request).flatten := by
  have hzeros : List.replicate requestBytes (0 : UInt8) =
      List.replicate 4 0 ++ (List.replicate 1 0 ++ (List.replicate 1 0 ++ ([0, 0] ++
        (List.replicate 4 0 ++ (List.replicate 4 0 ++ (List.replicate 8 0 ++ List.replicate 16 0)))))) := rfl
  simp only [encodeRequest, hzeros, putU8, putU32, putU64, putUint]
  simp (disch := simp [magicEipr]) only [splice_append_here, splice_append_right,
    length_leBytes, magicEipr, List.length_cons, List.length_nil, Nat.reduceAdd, Nat.reduceSub]
  rw [← sign_eq _ (List.length_replicate (a := (0 : UInt8)))]
  simp [requestSegments, magicEipr]

/-- `decode_request` accepts the encoding of every valid request, and nothing else. -/
theorem decodeRequest_iff {request : PlaybackRequest} : decodeRequest c packet key = .ok request ↔
    requestOk request = true ∧ request.Fits ∧ packet = encodeRequest c request key := by
  have hls : (requestSegments request).map List.length = [4, 1, 1, 2, 4, 4, 8] := by
    simp [requestSegments, magicEipr]
  unfold decodeRequest
  rw [guarded_ok (R := slice packet 6 2 = [0, 0]) Iff.rfl, encodeRequest_eq]
  refine and_congr_right fun _ => fixed_iff hls rfl fun hlength => ?_
  have hlength' : packet.length = 40 := hlength
  obtain ⟨slot, generation, connection, nonce⟩ := request
  simp (disch := omega) only [PlaybackRequest.mk.injEq, getU8, getU32, getU64, getUint_iff, chop,
    requestSegments, Nat.reduceAdd, List.cons.injEq, version_lt]
  constructor
  · rintro ⟨⟨h6, ⟨b5, h5⟩, ⟨b8, h8⟩, ⟨b12, h12⟩, b16, h16⟩, h0, -, h4⟩
    exact ⟨⟨b5, b8, b12, b16⟩, h0, h4, h5, h6, h8, h12, h16, trivial⟩
  · rintro ⟨⟨b5, b8, b12, b16⟩, h0, h4, h5, h6, h8, h12, h16, -⟩
    exact ⟨⟨h6, ⟨b5, h5⟩, ⟨b8, h8⟩, ⟨b12, h12⟩, b16, h16⟩, h0, trivial, h4⟩

/-! ### Begins -/

def beginSegments (start : PlaybackBegin) : List (List UInt8) :=
  [magicEipb, leBytes 1 playbackVersion, leBytes 1 start.identity.slot, [0, 0],
   leBytes 4 start.identity.requestGeneration, leBytes 4 start.identity.connectionGeneration,
   leBytes 8 start.identity.summaryGeneration, leBytes 8 start.identity.lease,
   leBytes 4 start.totalBytes, leBytes 8 start.totalSamples, leBytes 2 start.chunkBytes, [0, 0],
   leBytes 8 start.requestNonce]

theorem encodeBegin_eq (start : PlaybackBegin) :
    encodeBegin c start key = signed c key (beginSegments start).flatten := by
  have hzeros : List.replicate beginBytes (0 : UInt8) =
      List.replicate 4 0 ++ (List.replicate 1 0 ++ (List.replicate 1 0 ++ ([0, 0] ++
        (List.replicate 4 0 ++ (List.replicate 4 0 ++ (List.replicate 8 0 ++ (List.replicate 8 0 ++
          (List.replicate 4 0 ++ (List.replicate 8 0 ++ (List.replicate 2 0 ++ ([0, 0] ++
            (List.replicate 8 0 ++ List.replicate 16 0)))))))))))) := rfl
  simp only [encodeBegin, encodeIdentity, hzeros, putU8, putU16, putU32, putU64, putUint]
  simp (disch := simp [magicEipb]) only [splice_append_here, splice_append_right,
    length_leBytes, magicEipb, List.length_cons, List.length_nil, Nat.reduceAdd, Nat.reduceSub]
  rw [← sign_eq _ (List.length_replicate (a := (0 : UInt8)))]
  simp [beginSegments, magicEipb]

/-- `decode_begin` accepts the encoding of every valid begin, and nothing else. -/
theorem decodeBegin_iff {start : PlaybackBegin} : decodeBegin c packet key = .ok start ↔
    hostBeginOk start = true ∧ start.Fits ∧ packet = encodeBegin c start key := by
  have hls : (beginSegments start).map List.length = [4, 1, 1, 2, 4, 4, 8, 8, 4, 8, 2, 2, 8] := by
    simp [beginSegments, magicEipb]
  unfold decodeBegin
  rw [guarded_ok (R := slice packet 6 2 = [0, 0] ∧ slice packet 46 2 = [0, 0]) (by tauto),
    encodeBegin_eq]
  refine and_congr_right fun _ => fixed_iff hls rfl fun hlength => ?_
  have hlength' : packet.length = 72 := hlength
  obtain ⟨identity, bytes, samples, chunk, nonce⟩ := start
  rw [PlaybackBegin.mk.injEq, decodeIdentity_iff (by omega)]
  simp (disch := omega) only [getU8, getU16, getU32, getU64, getUint_iff, chop, beginSegments,
    Nat.reduceAdd, List.cons.injEq, version_lt]
  constructor
  · rintro ⟨⟨⟨h6, h46⟩, ⟨fits, h5, h8, h12, h16, h24⟩, ⟨b32, h32⟩, ⟨b36, h36⟩, ⟨b44, h44⟩, b48, h48⟩,
      h0, -, h4⟩
    exact ⟨⟨fits, b32, b36, b44, b48⟩, h0, h4, h5, h6, h8, h12, h16, h24, h32, h36, h44, h46, h48, trivial⟩
  · rintro ⟨⟨fits, b32, b36, b44, b48⟩, h0, h4, h5, h6, h8, h12, h16, h24, h32, h36, h44, h46, h48, -⟩
    exact ⟨⟨⟨h6, h46⟩, ⟨fits, h5, h8, h12, h16, h24⟩, ⟨b32, h32⟩, ⟨b36, h36⟩, ⟨b44, h44⟩, b48, h48⟩,
      h0, trivial, h4⟩

/-! ### Acknowledgements -/

/-- A reserved byte. -/
theorem getU8_zero (h : offset + 1 ≤ packet.length) : getU8 packet offset = 0 ↔ slice packet offset 1 = [0] := by
  rw [getU8, getUint_iff h]
  simp [leBytes]

def ackSegments (ack : PlaybackAck) : List (List UInt8) :=
  [magicEipa, leBytes 1 playbackVersion, leBytes 1 ack.identity.slot, leBytes 1 ack.status, [0],
   leBytes 4 ack.identity.requestGeneration, leBytes 4 ack.identity.connectionGeneration,
   leBytes 8 ack.identity.summaryGeneration, leBytes 8 ack.identity.lease, leBytes 4 ack.nextOffset]

theorem encodeAck_eq (ack : PlaybackAck) :
    encodeAck c ack key = signed c key (ackSegments ack).flatten := by
  have hzeros : List.replicate ackBytes (0 : UInt8) =
      List.replicate 4 0 ++ (List.replicate 1 0 ++ (List.replicate 1 0 ++ (List.replicate 1 0 ++ ([0] ++
        (List.replicate 4 0 ++ (List.replicate 4 0 ++ (List.replicate 8 0 ++ (List.replicate 8 0 ++
          (List.replicate 4 0 ++ List.replicate 16 0))))))))) := rfl
  simp only [encodeAck, encodeIdentity, hzeros, putU8, putU32, putU64, putUint]
  simp (disch := simp [magicEipa]) only [splice_append_here, splice_append_right,
    length_leBytes, magicEipa, List.length_cons, List.length_nil, Nat.reduceAdd, Nat.reduceSub]
  rw [← sign_eq _ (List.length_replicate (a := (0 : UInt8)))]
  simp [ackSegments, magicEipa]

/-- `decode_ack` accepts the encoding of every valid acknowledgement, and nothing else. -/
theorem decodeAck_iff {ack : PlaybackAck} : decodeAck c packet key = .ok ack ↔
    ackOk ack = true ∧ ack.Fits ∧ packet = encodeAck c ack key := by
  have hls : (ackSegments ack).map List.length = [4, 1, 1, 1, 1, 4, 4, 8, 8, 4] := by
    simp [ackSegments, magicEipa]
  unfold decodeAck
  rw [guarded_ok (R := getU8 packet 7 = 0) Iff.rfl, encodeAck_eq]
  refine and_congr_right fun _ => fixed_iff hls rfl fun hlength => ?_
  have hlength' : packet.length = 52 := hlength
  obtain ⟨identity, status, next⟩ := ack
  rw [PlaybackAck.mk.injEq, decodeIdentity_iff (by omega), getU8_zero (by omega)]
  simp (disch := omega) only [getU8, getU32, getUint_iff, chop, ackSegments,
    Nat.reduceAdd, List.cons.injEq, version_lt]
  constructor
  · rintro ⟨⟨h7, ⟨fits, h5, h8, h12, h16, h24⟩, ⟨b6, h6⟩, b32, h32⟩, h0, -, h4⟩
    exact ⟨⟨fits, b6, b32⟩, h0, h4, h5, h6, h7, h8, h12, h16, h24, h32, trivial⟩
  · rintro ⟨⟨fits, b6, b32⟩, h0, h4, h5, h6, h7, h8, h12, h16, h24, h32, -⟩
    exact ⟨⟨h7, ⟨fits, h5, h8, h12, h16, h24⟩, ⟨b6, h6⟩, b32, h32⟩, h0, trivial, h4⟩

/-! ### Finishes -/

def finishedSegments (finished : PlaybackFinished) : List (List UInt8) :=
  [magicEipf, leBytes 1 playbackVersion, leBytes 1 finished.identity.slot, [0, 0],
   leBytes 4 finished.identity.requestGeneration, leBytes 4 finished.identity.connectionGeneration,
   leBytes 8 finished.identity.summaryGeneration, leBytes 8 finished.identity.lease,
   leBytes 8 finished.playedSamples]

theorem encodeFinished_eq (finished : PlaybackFinished) :
    encodeFinished c finished key = signed c key (finishedSegments finished).flatten := by
  have hzeros : List.replicate finishedBytes (0 : UInt8) =
      List.replicate 4 0 ++ (List.replicate 1 0 ++ (List.replicate 1 0 ++ ([0, 0] ++
        (List.replicate 4 0 ++ (List.replicate 4 0 ++ (List.replicate 8 0 ++ (List.replicate 8 0 ++
          (List.replicate 8 0 ++ List.replicate 16 0)))))))) := rfl
  simp only [encodeFinished, encodeIdentity, hzeros, putU8, putU32, putU64, putUint]
  simp (disch := simp [magicEipf]) only [splice_append_here, splice_append_right,
    length_leBytes, magicEipf, List.length_cons, List.length_nil, Nat.reduceAdd, Nat.reduceSub]
  rw [← sign_eq _ (List.length_replicate (a := (0 : UInt8)))]
  simp [finishedSegments, magicEipf]

/-- `decode_finished` accepts the encoding of every valid finish, and nothing else. -/
theorem decodeFinished_iff {finished : PlaybackFinished} : decodeFinished c packet key = .ok finished ↔
    finishedOk finished = true ∧ finished.Fits ∧ packet = encodeFinished c finished key := by
  have hls : (finishedSegments finished).map List.length = [4, 1, 1, 2, 4, 4, 8, 8, 8] := by
    simp [finishedSegments, magicEipf]
  unfold decodeFinished
  rw [guarded_ok (R := slice packet 6 2 = [0, 0]) Iff.rfl, encodeFinished_eq]
  refine and_congr_right fun _ => fixed_iff hls rfl fun hlength => ?_
  have hlength' : packet.length = 56 := hlength
  obtain ⟨identity, samples⟩ := finished
  rw [PlaybackFinished.mk.injEq, decodeIdentity_iff (by omega)]
  simp (disch := omega) only [getU8, getU64, getUint_iff, chop, finishedSegments,
    Nat.reduceAdd, List.cons.injEq, version_lt]
  constructor
  · rintro ⟨⟨h6, ⟨fits, h5, h8, h12, h16, h24⟩, b32, h32⟩, h0, -, h4⟩
    exact ⟨⟨fits, b32⟩, h0, h4, h5, h6, h8, h12, h16, h24, h32, trivial⟩
  · rintro ⟨⟨fits, b32⟩, h0, h4, h5, h6, h8, h12, h16, h24, h32, -⟩
    exact ⟨⟨h6, ⟨fits, h5, h8, h12, h16, h24⟩, b32, h32⟩, h0, trivial, h4⟩

def finishedAckSegments (identity : PlaybackIdentity) (status : Nat) : List (List UInt8) :=
  [magicEipk, leBytes 1 playbackVersion, leBytes 1 identity.slot, leBytes 1 status, [0],
   leBytes 4 identity.requestGeneration, leBytes 4 identity.connectionGeneration,
   leBytes 8 identity.summaryGeneration, leBytes 8 identity.lease]

theorem encodeFinishedAck_eq (identity : PlaybackIdentity) (status : Nat) :
    encodeFinishedAck c identity status key =
      signed c key (finishedAckSegments identity status).flatten := by
  have hzeros : List.replicate finishedAckBytes (0 : UInt8) =
      List.replicate 4 0 ++ (List.replicate 1 0 ++ (List.replicate 1 0 ++ (List.replicate 1 0 ++ ([0] ++
        (List.replicate 4 0 ++ (List.replicate 4 0 ++ (List.replicate 8 0 ++ (List.replicate 8 0 ++
          List.replicate 16 0)))))))) := rfl
  simp only [encodeFinishedAck, encodeIdentity, hzeros, putU8, putU32, putU64, putUint]
  simp (disch := simp [magicEipk]) only [splice_append_here, splice_append_right,
    length_leBytes, magicEipk, List.length_cons, List.length_nil, Nat.reduceAdd, Nat.reduceSub]
  rw [← sign_eq _ (List.length_replicate (a := (0 : UInt8)))]
  simp [finishedAckSegments, magicEipk]

/-- `decode_finished_ack` accepts the encoding of every valid pair, and nothing else. -/
theorem decodeFinishedAck_iff {identity : PlaybackIdentity} {status : Nat} :
    decodeFinishedAck c packet key = .ok (identity, status) ↔
      finishedAckOk identity status = true ∧ (identity.Fits ∧ status < 256 ^ 1) ∧
        packet = encodeFinishedAck c identity status key := by
  have hls : (finishedAckSegments identity status).map List.length = [4, 1, 1, 1, 1, 4, 4, 8, 8] := by
    simp [finishedAckSegments, magicEipk]
  have hguard : decodeFinishedAck c packet key = .ok (identity, status) ↔
      finishedAckOk identity status = true ∧
      verifyFixed c packet finishedAckBytes magicEipk key = .ok () ∧ getU8 packet 7 = 0 ∧
      (decodeIdentity packet, getU8 packet 6) = (identity, status) :=
    guarded_ok (f := fun v : PlaybackIdentity × Nat => finishedAckOk v.1 v.2) Iff.rfl
  rw [hguard, encodeFinishedAck_eq]
  refine and_congr_right fun _ => fixed_iff hls rfl fun hlength => ?_
  have hlength' : packet.length = 48 := hlength
  rw [Prod.mk.injEq, decodeIdentity_iff (by omega), getU8_zero (by omega)]
  simp (disch := omega) only [getU8, getUint_iff, chop, finishedAckSegments, Nat.reduceAdd,
    List.cons.injEq, version_lt]
  constructor
  · rintro ⟨⟨h7, ⟨fits, h5, h8, h12, h16, h24⟩, b6, h6⟩, h0, -, h4⟩
    exact ⟨⟨fits, b6⟩, h0, h4, h5, h6, h7, h8, h12, h16, h24, trivial⟩
  · rintro ⟨⟨fits, b6⟩, h0, h4, h5, h6, h7, h8, h12, h16, h24, -⟩
    exact ⟨⟨h7, ⟨fits, h5, h8, h12, h16, h24⟩, b6, h6⟩, h0, trivial, h4⟩

/-! ### The mailbox -/

def mailboxSegments (status : MailboxStatus) (heartbeatSequence : Nat) : List (List UInt8) :=
  [magicEimb, leBytes 1 mailboxStatusVersion, leBytes 1 status.unreadSlots,
   leBytes 1 status.runningTasks, [0], leBytes 4 heartbeatSequence,
   status.coverageBySlot.map UInt8.ofNat]

theorem encodeMailboxStatus_eq {status : MailboxStatus} (hvalid : validMailboxStatus status = true)
    (hslots : status.coverageBySlot.length = 4) (heartbeatSequence : Nat) :
    encodeMailboxStatus c status heartbeatSequence key =
      .ok (signed c key (mailboxSegments status heartbeatSequence).flatten) := by
  have hzeros : List.replicate mailboxStatusBytes (0 : UInt8) =
      List.replicate 4 0 ++ (List.replicate 1 0 ++ (List.replicate 1 0 ++ (List.replicate 1 0 ++ ([0] ++
        (List.replicate 4 0 ++ (List.replicate 4 0 ++ List.replicate 16 0)))))) := rfl
  simp only [encodeMailboxStatus, hvalid, hzeros, putU8, putU32, putUint, Bool.true_eq_false, if_false]
  simp (disch := simp [magicEimb, hslots]) only [splice_append_here, splice_append_right,
    length_leBytes, magicEimb, List.length_cons, List.length_nil, Nat.reduceAdd, Nat.reduceSub]
  rw [← sign_eq _ (List.length_replicate (a := (0 : UInt8)))]
  simp [mailboxSegments, magicEimb]

/-- Bytes read as numbers. -/
theorem map_toNat_iff {bytes : List UInt8} {values : List Nat} :
    bytes.map UInt8.toNat = values ↔
      (∀ value ∈ values, value < 256 ^ 1) ∧ bytes = values.map UInt8.ofNat := by
  constructor
  · rintro rfl
    refine ⟨fun value hvalue => ?_, ?_⟩
    · obtain ⟨b, _, rfl⟩ := List.mem_map.1 hvalue
      exact b.toNat_lt
    · rw [List.map_map]
      exact ((List.map_congr_left fun b _ => UInt8.ofNat_toNat).trans (List.map_id _)).symm
  · rintro ⟨hfits, rfl⟩
    rw [List.map_map]
    refine (List.map_congr_left fun value hvalue => ?_).trans (List.map_id _)
    have hlt := hfits value hvalue
    simp only [Function.comp_apply, UInt8.toNat_ofNat', id]
    omega

/-- The framing of a mailbox status. -/
def verifyMailbox (c : Crypto) (packet key : List UInt8) : Except PlaybackWireError Unit :=
  if packet.length ≠ mailboxStatusBytes ∨ packet.take 4 ≠ magicEimb ∨
      getU8 packet 4 ≠ mailboxStatusVersion then .error .malformed
  else verify c key packet

theorem verifyMailbox_iff : verifyMailbox c packet key = .ok () ↔
    packet.length = mailboxStatusBytes ∧ slice packet 0 4 = magicEimb ∧
      getU8 packet 4 = mailboxStatusVersion ∧ verify c key packet = .ok () := by
  unfold verifyMailbox
  split
  next h =>
    simp only [reduceCtorEq, false_iff, not_and]
    intro hlength hmagic hversion
    simp only [slice, List.drop_zero] at hmagic
    simp [hlength, hmagic, hversion] at h
  next h =>
    simp only [not_or, not_not] at h
    simp [h.1, h.2.1, h.2.2, slice]

/-- What `decode_mailbox_status` reads. -/
def readMailbox (packet : List UInt8) : MailboxStatus where
  unreadSlots := getU8 packet 5
  runningTasks := getU8 packet 6
  coverageBySlot := (slice packet 12 4).map UInt8.toNat

theorem decodeMailboxStatus_eq : decodeMailboxStatus c packet key = (do
    verifyMailbox c packet key
    if getU8 packet 7 ≠ 0 ∨ validMailboxStatus (readMailbox packet) = false then .error .malformed
    else .ok (readMailbox packet, getU32 packet 8)) := by
  unfold decodeMailboxStatus verifyMailbox
  split <;> rfl

theorem readMailbox_iff {status : MailboxStatus} (h : packet.length = 32) :
    readMailbox packet = status ↔ status.Fits ∧ slice packet 5 1 = leBytes 1 status.unreadSlots ∧
      slice packet 6 1 = leBytes 1 status.runningTasks ∧
      slice packet 12 4 = status.coverageBySlot.map UInt8.ofNat := by
  obtain ⟨unread, running, coverage⟩ := status
  simp (disch := omega) only [readMailbox, MailboxStatus.mk.injEq, getU8, getUint_iff, map_toNat_iff]
  constructor
  · rintro ⟨⟨b5, h5⟩, ⟨b6, h6⟩, b12, h12⟩
    have hlength := congrArg List.length h12
    rw [length_slice (by omega), List.length_map] at hlength
    exact ⟨⟨b5, b6, hlength.symm, b12⟩, h5, h6, h12⟩
  · rintro ⟨⟨b5, b6, -, b12⟩, h5, h6, h12⟩
    exact ⟨⟨b5, h5⟩, ⟨b6, h6⟩, b12, h12⟩

/-- `decode_mailbox_status` accepts the encoding of every valid status, and nothing else. -/
theorem decodeMailboxStatus_iff {status : MailboxStatus} {heartbeatSequence : Nat} :
    decodeMailboxStatus c packet key = .ok (status, heartbeatSequence) ↔
      (status.Fits ∧ heartbeatSequence < 256 ^ 4) ∧
        encodeMailboxStatus c status heartbeatSequence key = .ok packet := by
  have hguard : decodeMailboxStatus c packet key = .ok (status, heartbeatSequence) ↔
      validMailboxStatus status = true ∧ verifyMailbox c packet key = .ok () ∧ getU8 packet 7 = 0 ∧
      (readMailbox packet, getU32 packet 8) = (status, heartbeatSequence) := by
    rw [decodeMailboxStatus_eq]
    exact guarded_ok (f := fun v : MailboxStatus × Nat => validMailboxStatus v.1) Iff.rfl
  have hversion : mailboxStatusVersion < 256 ^ 1 := by decide
  have hframe : status.coverageBySlot.length = 4 → (verifyMailbox c packet key = .ok () ∧
      getU8 packet 7 = 0 ∧ (readMailbox packet, getU32 packet 8) = (status, heartbeatSequence) ↔
      (status.Fits ∧ heartbeatSequence < 256 ^ 4) ∧
        packet = signed c key (mailboxSegments status heartbeatSequence).flatten) := by
    intro hslots
    have hls : (mailboxSegments status heartbeatSequence).map List.length = [4, 1, 1, 1, 1, 4, 4] := by
      simp [mailboxSegments, magicEimb, hslots]
    rw [verifyMailbox_iff]
    refine framed_iff hls rfl fun hlength => ?_
    have hlength' : packet.length = 32 := hlength
    rw [Prod.mk.injEq, readMailbox_iff hlength', getU8_zero (by omega)]
    simp (disch := omega) only [getU8, getU32, getUint_iff, chop, mailboxSegments, Nat.reduceAdd,
      List.cons.injEq, hversion]
    constructor
    · rintro ⟨⟨h7, ⟨fits, h5, h6, h12⟩, b8, h8⟩, h0, -, h4⟩
      exact ⟨⟨fits, b8⟩, h0, h4, h5, h6, h7, h8, h12, trivial⟩
    · rintro ⟨⟨fits, b8⟩, h0, h4, h5, h6, h7, h8, h12, -⟩
      exact ⟨⟨h7, ⟨fits, h5, h6, h12⟩, b8, h8⟩, h0, trivial, h4⟩
  rw [hguard]
  constructor
  · rintro ⟨hvalid, hrest⟩
    have hslots : status.coverageBySlot.length = 4 := by
      have hread := congrArg Prod.fst hrest.2.2
      have hlength := (verifyMailbox_iff.1 hrest.1).1
      exact ((readMailbox_iff hlength).1 hread).1.slots
    obtain ⟨hfits, hpacket⟩ := (hframe hslots).1 hrest
    refine ⟨hfits, ?_⟩
    rw [encodeMailboxStatus_eq hvalid hslots, ← hpacket]
  · rintro ⟨hfits, hencode⟩
    by_cases hvalid : validMailboxStatus status = true
    · rw [encodeMailboxStatus_eq hvalid hfits.1.slots, Except.ok.injEq] at hencode
      exact ⟨hvalid, (hframe hfits.1.slots).2 ⟨hfits, hencode.symm⟩⟩
    · simp [encodeMailboxStatus, hvalid] at hencode

/-! ### Data -/

variable {identity : PlaybackIdentity} {requestNonce : Nat} {payload : List UInt8}

def dataSegments (identity : PlaybackIdentity) (offset size : Nat) : List (List UInt8) :=
  [magicEipd, leBytes 1 playbackVersion, leBytes 1 identity.slot, [0, 0],
   leBytes 4 identity.requestGeneration, leBytes 4 identity.connectionGeneration,
   leBytes 8 identity.summaryGeneration, leBytes 8 identity.lease, leBytes 4 offset, leBytes 2 size, [0, 0]]

/-- The header a payload is sealed with. -/
def dataHeader (identity : PlaybackIdentity) (offset size : Nat) : List UInt8 :=
  (dataSegments identity offset size).flatten

theorem length_dataSegments (identity : PlaybackIdentity) (offset size : Nat) :
    (dataSegments identity offset size).map List.length = [4, 1, 1, 2, 4, 4, 8, 8, 4, 2, 2] := by
  simp [dataSegments, magicEipd]

theorem length_dataHeader (identity : PlaybackIdentity) (offset size : Nat) :
    (dataHeader identity offset size).length = 40 := by
  rw [dataHeader, List.length_flatten, length_dataSegments]
  rfl

theorem dataPlain_eq (identity : PlaybackIdentity) (offset : Nat) (payload : List UInt8) :
    dataPlain identity offset payload =
      dataHeader identity offset payload.length ++ (payload ++ List.replicate 16 0) := by
  have hzeros : List.replicate (dataHeaderBytes + payload.length + playbackTagBytes) (0 : UInt8) =
      List.replicate 4 0 ++ (List.replicate 1 0 ++ (List.replicate 1 0 ++ ([0, 0] ++
        (List.replicate 4 0 ++ (List.replicate 4 0 ++ (List.replicate 8 0 ++ (List.replicate 8 0 ++
          (List.replicate 4 0 ++ (List.replicate 2 0 ++ ([0, 0] ++
            (List.replicate payload.length 0 ++ List.replicate 16 0))))))))))) := by
    rw [Nat.add_assoc, List.replicate_add, List.replicate_add]
    rfl
  simp only [dataPlain, encodeIdentity, hzeros, putU8, putU16, putU32, putU64, putUint]
  simp (disch := simp [magicEipd]) only [splice_append_here, splice_append_right,
    length_leBytes, magicEipd, List.length_cons, List.length_nil, Nat.reduceAdd, Nat.reduceSub]
  simp [dataHeader, dataSegments, magicEipd]

/-- What `encode_data` makes of a payload it takes. -/
theorem encodeDataBytes_iff {key : List UInt8} :
    encodeDataBytes c identity requestNonce offset payload key = .ok packet ↔
      (validIdentity identity = true ∧ requestNonce ≠ 0 ∧ payload ≠ [] ∧
        payload.length ≤ playbackChunkBytes) ∧
      ∃ ciphertext tag, c.encrypt (deriveDataKey c identity requestNonce key) (dataNonce offset)
          (dataHeader identity offset payload.length) payload = (ciphertext, tag) ∧
        packet = dataHeader identity offset payload.length ++ (ciphertext ++ tag) := by
  unfold encodeDataBytes
  split
  next hbad =>
    simp only [reduceCtorEq, false_iff, not_and]
    rintro ⟨h1, h2, h3, h4⟩
    simp only [h1, h2, h3, Bool.true_eq_false, false_or] at hbad
    omega
  next hok =>
    simp only [not_or, Bool.not_eq_false, Nat.not_lt] at hok
    have hheader : (dataPlain identity offset payload).take dataHeaderBytes =
        dataHeader identity offset payload.length := by
      rw [dataPlain_eq]
      exact List.take_left' (length_dataHeader _ _ _)
    have hbody : slice (dataPlain identity offset payload) dataHeaderBytes payload.length = payload := by
      rw [dataPlain_eq, slice_append_right (by rw [length_dataHeader]; rfl), length_dataHeader,
        show dataHeaderBytes - 40 = 0 by rfl, slice_append_here rfl]
    simp only [hheader, hbody]
    have hciphertext := c.ciphertext_length (deriveDataKey c identity requestNonce key)
      (dataNonce offset) (dataHeader identity offset payload.length) payload
    have htag := c.tag_length (deriveDataKey c identity requestNonce key)
      (dataNonce offset) (dataHeader identity offset payload.length) payload
    generalize c.encrypt (deriveDataKey c identity requestNonce key) (dataNonce offset)
      (dataHeader identity offset payload.length) payload = sealed at hciphertext htag ⊢
    obtain ⟨ciphertext, tag⟩ := sealed
    simp only at hciphertext htag ⊢
    have hpacket : splice (splice (dataPlain identity offset payload) dataHeaderBytes ciphertext)
        (dataHeaderBytes + payload.length) tag =
          dataHeader identity offset payload.length ++ (ciphertext ++ tag) := by
      have hforty := length_dataHeader identity offset payload.length
      rw [dataPlain_eq, splice_append_right (by rw [hforty]; rfl), hforty,
        show dataHeaderBytes - 40 = 0 by rfl, splice_append_here hciphertext.symm,
        splice_append_right (by rw [hforty]; exact Nat.le_add_right _ _), hforty,
        show dataHeaderBytes + payload.length - 40 = payload.length by
          rw [show dataHeaderBytes = 40 by rfl]; omega,
        splice_append_right (Nat.le_of_eq hciphertext), hciphertext, Nat.sub_self,
        splice_here (by rw [htag, List.length_replicate])]
    simp only [hpacket, Except.ok.injEq]
    constructor
    · rintro rfl
      exact ⟨hok, ciphertext, tag, rfl, rfl⟩
    · rintro ⟨_, ciphertext', tag', heq, rfl⟩
      obtain ⟨rfl, rfl⟩ := Prod.mk.inj heq
      rfl

/-- The header of a data packet, field by field. -/
theorem dataHeader_iff {size : Nat} (h : 40 ≤ packet.length) :
    packet.take 40 = dataHeader identity offset size ∧ identity.Fits ∧ offset < 256 ^ 4 ∧ size < 256 ^ 2 ↔
      slice packet 0 4 = magicEipd ∧ getU8 packet 4 = playbackVersion ∧ slice packet 6 2 = [0, 0] ∧
      slice packet 38 2 = [0, 0] ∧ decodeIdentity packet = identity ∧ getU32 packet 32 = offset ∧
      getU16 packet 36 = size := by
  have hlength : (packet.take 40).length = 40 := by
    rw [List.length_take]
    omega
  have hsum : [4, 1, 1, 2, 4, 4, 8, 8, 4, 2, 2].sum = 40 := rfl
  have hchop : chop (packet.take 40) 0 [4, 1, 1, 2, 4, 4, 8, 8, 4, 2, 2] =
      chop packet 0 [4, 1, 1, 2, 4, 4, 8, 8, 4, 2, 2] := by
    conv => rhs; rw [← List.take_append_drop 40 packet]
    rw [chop_append_left _ _ _ _ (by rw [hlength, hsum])]
  rw [dataHeader, eq_flatten_iff (length_dataSegments identity offset size), hlength, hsum, hchop,
    decodeIdentity_iff (by omega)]
  simp (disch := omega) only [getU8, getU16, getU32, getUint_iff, chop, dataSegments, Nat.reduceAdd,
    List.cons.injEq, version_lt]
  constructor
  · rintro ⟨⟨-, h0, h4, h5, h6, h8, h12, h16, h24, h32, h36, h38, -⟩, fits, b32, b36⟩
    exact ⟨h0, ⟨trivial, h4⟩, h6, h38, ⟨fits, h5, h8, h12, h16, h24⟩, ⟨b32, h32⟩, b36, h36⟩
  · rintro ⟨h0, ⟨-, h4⟩, h6, h38, ⟨fits, h5, h8, h12, h16, h24⟩, ⟨b32, h32⟩, b36, h36⟩
    exact ⟨⟨trivial, h0, h4, h5, h6, h8, h12, h16, h24, h32, h36, h38, trivial⟩, fits, b32, b36⟩

/-- A data packet is its header, its ciphertext and its tag. -/
theorem packet_parts (packet : List UInt8) (size : Nat) :
    packet = packet.take 40 ++ (slice packet 40 size ++ packet.drop (40 + size)) := by
  have hrest : packet.drop 40 = slice packet 40 size ++ packet.drop (40 + size) := by
    rw [slice, ← List.drop_drop, List.take_append_drop]
  rw [← hrest, List.take_append_drop]

/-- `decode_data` accepts the sealing of every valid payload, and nothing else. -/
theorem decodeDataBytes_iff : decodeDataBytes c packet requestNonce key = .ok (identity, offset, payload) ↔
    (identity.Fits ∧ offset < 256 ^ 4) ∧
      encodeDataBytes c identity requestNonce offset payload key = .ok packet := by
  rw [encodeDataBytes_iff]
  unfold decodeDataBytes
  constructor
  · intro h
    split at h
    · cases h
    next hframe =>
      simp only [not_or, not_lt, not_not] at hframe
      obtain ⟨-, hmagic, hversion⟩ := hframe
      dsimp only at h
      split at h
      · cases h
      next hfields =>
        simp only [not_or, not_not, Bool.not_eq_false, not_lt] at hfields
        obtain ⟨h6, h38, hvalid, hnonce, hsize, hbound, hlength⟩ := hfields
        split at h
        · cases h
        next plaintext hplain =>
          have hlength' : packet.length = 40 + getU16 packet 36 + 16 := hlength
          obtain ⟨hidentity, hoffset, hpayload⟩ : decodeIdentity packet = identity ∧
              getU32 packet 32 = offset ∧ plaintext = payload := by simpa using h
          obtain ⟨hheader, hfits, hoff, -⟩ := (dataHeader_iff (by omega)).2
            ⟨hmagic, hversion, h6, h38, hidentity, hoffset, rfl⟩
          have hsealed := (c.decrypt_iff _ _ _ _ _ _).1 hplain
          have hforty : dataHeaderBytes = 40 := rfl
          rw [hforty] at hsealed
          have hciphertext := c.ciphertext_length _ _ _ _ |>.symm.trans (congrArg (·.1.length) hsealed)
          rw [length_slice (by omega)] at hciphertext
          rw [hpayload] at hciphertext hsealed
          rw [hidentity] at hvalid hsealed
          rw [hoffset, hheader] at hsealed
          refine ⟨⟨hfits, hoff⟩, ⟨hvalid, hnonce, ?_, ?_⟩, slice packet 40 (getU16 packet 36),
            packet.drop (40 + getU16 packet 36), ?_, ?_⟩
          · rintro rfl
            exact hsize hciphertext.symm
          · rwa [hciphertext]
          · rw [hciphertext]
            exact hsealed
          · rw [hciphertext, ← hheader]
            exact packet_parts packet _
  · rintro ⟨⟨hfits, hoff⟩, ⟨hvalid, hnonce, hpayload, hbound⟩, ciphertext, tag, hsealed, hpacket⟩
    have hciphertext := c.ciphertext_length _ _ _ _ |>.symm.trans (congrArg (·.1.length) hsealed)
    have htag := c.tag_length _ _ _ _ |>.symm.trans (congrArg (·.2.length) hsealed)
    simp only at hciphertext htag
    have hforty := length_dataHeader identity offset payload.length
    have hlength : packet.length = 40 + payload.length + 16 := by
      rw [hpacket, List.length_append, List.length_append, hforty]
      omega
    have hhead : packet.take 40 = dataHeader identity offset payload.length := by
      rw [hpacket, List.take_left' hforty]
    have hsmall : payload.length < 256 ^ 2 := Nat.lt_of_le_of_lt hbound (by decide)
    obtain ⟨hmagic, hversion, h6, h38, hidentity, hoffset, hsize⟩ :=
      (dataHeader_iff (by omega)).1 ⟨hhead, hfits, hoff, hsmall⟩
    have hpos : 0 < payload.length := List.length_pos_iff.2 hpayload
    have hslice : slice packet 40 payload.length = ciphertext := by
      rw [hpacket, slice_append_right (by omega), hforty, slice_append_here (by omega)]
    have hdrop : packet.drop (40 + payload.length) = tag := by
      rw [hpacket, ← List.drop_drop, List.drop_left' hforty, List.drop_left' (by omega)]
    have hplain := (c.decrypt_iff _ _ _ _ _ _).2 hsealed
    have hframe : ¬(packet.length < dataHeaderBytes + 1 + playbackTagBytes ∨
        packet.take 4 ≠ magicEipd ∨ getU8 packet 4 ≠ playbackVersion) := by
      simp only [hversion, ne_eq, not_true_eq_false, or_false, not_or, not_not]
      exact ⟨by rw [hlength]; show ¬_ < 57; omega, hmagic⟩
    have hgood : ¬(slice packet 6 2 ≠ [0, 0] ∨ slice packet 38 2 ≠ [0, 0] ∨
        validIdentity identity = false ∨ requestNonce = 0 ∨ payload.length = 0 ∨
        playbackChunkBytes < payload.length ∨
        packet.length ≠ dataHeaderBytes + payload.length + playbackTagBytes) := by
      simp only [h6, h38, hvalid, hnonce, ne_eq, not_true_eq_false, false_or, Bool.true_eq_false, not_or,
        not_not, not_lt]
      exact ⟨by omega, hbound, hlength⟩
    rw [if_neg hframe]
    dsimp only
    rw [hidentity, hsize, hoffset, if_neg hgood]
    simp only [show dataHeaderBytes = 40 by rfl, hhead, hslice, hdrop, hplain]

end CodexKeyboard.Lan
