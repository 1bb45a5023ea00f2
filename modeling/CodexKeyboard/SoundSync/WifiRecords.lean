import CodexKeyboard.SoundSync.FrameWire
import CodexKeyboard.SoundSync.Session

/-! The authenticated records that carry frames over Wi-Fi (`speaker_assets_wifi_wire.cpp`), and the loop of
    `SpeakerAssetsWifiCarrier::service_connection` that takes requests off a connection.

    The digest of `SoundCrypto` is abstract; its 32 bytes are a hypothesis. The connection is the bytes that
    arrive, from whomever. -/

namespace CodexKeyboard.SoundSync

open Schemes.Bytes

def speakerAssetsWifiTagBytes : ℕ := 16
def speakerAssetsWifiRecordHeaderBytes : ℕ := 32
def speakerAssetsWifiRecordMaxBytes : ℕ := speakerAssetsWifiRecordHeaderBytes + speakerAssetsWifiFrameMaxBytes
def speakerAssetsWifiWireVersion : UInt8 := 1

inductive SpeakerAssetsWifiRecordKind
  | request
  | response
deriving DecidableEq

def SpeakerAssetsWifiRecordKind.code : SpeakerAssetsWifiRecordKind → UInt8
  | .request => 1
  | .response => 2

structure SpeakerAssetsWifiRecord where
  kind : SpeakerAssetsWifiRecordKind := .request
  sequence : UInt32 := 0
  payload : List UInt8 := []
deriving DecidableEq

/-- `SoundHmacSha256` of a key of 32 bytes. -/
def soundHmac (crypto : SoundCrypto) (key message : List UInt8) : List UInt8 :=
  crypto.sha256 ((List.range 64).map (fun i => key.getD i 0 ^^^ 0x5C) ++
    crypto.sha256 ((List.range 64).map (fun i => key.getD i 0 ^^^ 0x36) ++ message))

def keyIsValid (key : List UInt8) : Bool := key.any (· != 0)

/-- The first 16 bytes of a record. -/
def recordFront (record : SpeakerAssetsWifiRecord) : List UInt8 :=
  [0x45, 0x49, 0x53, 0x46] ++ [speakerAssetsWifiWireVersion] ++ [record.kind.code] ++ leBytes 2 record.payload.length ++
    leBytes 4 record.sequence.toNat ++ [0, 0, 0, 0]

/-- What the tag of a record is taken of. -/
def recordMessage (record : SpeakerAssetsWifiRecord) : List UInt8 := recordFront record ++ record.payload

def recordTag (crypto : SoundCrypto) (sessionKey message : List UInt8) : List UInt8 :=
  (soundHmac crypto sessionKey message).take speakerAssetsWifiTagBytes

def encodeSpeakerAssetsWifiRecord (crypto : SoundCrypto) (record : SpeakerAssetsWifiRecord) (sessionKey : List UInt8) :
    Option (List UInt8) :=
  if record.sequence = 0 || decide (record.payload.length < speakerAssetsFrameHeaderBytes) ||
      decide (speakerAssetsWifiFrameMaxBytes < record.payload.length) || !keyIsValid sessionKey then none
  else some (recordFront record ++ recordTag crypto sessionKey (recordMessage record) ++ record.payload)

def decodeSpeakerAssetsWifiRecord (crypto : SoundCrypto) (encoded sessionKey : List UInt8)
    (expectedKind : SpeakerAssetsWifiRecordKind) : Option SpeakerAssetsWifiRecord :=
  if encoded.length < speakerAssetsWifiRecordHeaderBytes ∨ speakerAssetsWifiRecordMaxBytes < encoded.length ∨
      keyIsValid sessionKey = false ∨ encoded.take 4 ≠ [0x45, 0x49, 0x53, 0x46] ∨
      encoded.getD 4 0 ≠ speakerAssetsWifiWireVersion ∨ encoded.getD 5 0 ≠ expectedKind.code ∨
      slice encoded 12 4 ≠ [0, 0, 0, 0] then none
  else
    let payloadLength := readLe encoded 6 2
    let sequence := UInt32.ofNat (readLe encoded 8 4)
    if sequence = 0 ∨ payloadLength < speakerAssetsFrameHeaderBytes ∨ speakerAssetsWifiFrameMaxBytes < payloadLength ∨
        encoded.length ≠ speakerAssetsWifiRecordHeaderBytes + payloadLength then none
    else if recordTag crypto sessionKey
          (encoded.take 16 ++ slice encoded speakerAssetsWifiRecordHeaderBytes payloadLength) ≠
        slice encoded 16 speakerAssetsWifiTagBytes then none
    else some ⟨expectedKind, sequence, slice encoded speakerAssetsWifiRecordHeaderBytes payloadLength⟩

/-! ### One encoding for each record -/

variable {crypto : SoundCrypto} {record other : SpeakerAssetsWifiRecord} {encoded sessionKey message : List UInt8}
  {expectedKind : SpeakerAssetsWifiRecordKind}

/-- A digest has 32 bytes. -/
def SoundCrypto.Sized (crypto : SoundCrypto) : Prop := ∀ message, (crypto.sha256 message).length = 32

theorem length_recordTag (hsized : crypto.Sized) (sessionKey message : List UInt8) :
    (recordTag crypto sessionKey message).length = 16 := by
  rw [recordTag, List.length_take, soundHmac, hsized]
  rfl

theorem length_recordFront (record : SpeakerAssetsWifiRecord) : (recordFront record).length = 16 := by
  simp only [recordFront, List.length_append, List.length_cons, List.length_nil, length_leBytes]

/-- A record that may be sent. -/
structure SpeakerAssetsWifiRecord.Sendable (record : SpeakerAssetsWifiRecord) (sessionKey : List UInt8) : Prop where
  sequence : record.sequence ≠ 0
  header : speakerAssetsFrameHeaderBytes ≤ record.payload.length
  fits : record.payload.length ≤ speakerAssetsWifiFrameMaxBytes
  key : keyIsValid sessionKey = true

theorem encodeRecord_iff : encodeSpeakerAssetsWifiRecord crypto record sessionKey = some encoded ↔
    record.Sendable sessionKey ∧
      recordFront record ++ recordTag crypto sessionKey (recordMessage record) ++ record.payload = encoded := by
  rw [encodeSpeakerAssetsWifiRecord]
  split
  next hbad =>
    constructor
    · intro h
      cases h
    · rintro ⟨⟨hsequence, hheader, hfits, hkey⟩, -⟩
      simp [hsequence, Nat.not_lt.2 hheader, Nat.not_lt.2 hfits, hkey] at hbad
  next hgood =>
    simp only [Bool.or_eq_true, decide_eq_true_eq, Bool.not_eq_true', not_or, Nat.not_lt, Bool.not_eq_false] at hgood
    rw [Option.some.injEq]
    exact ⟨fun h => ⟨⟨hgood.1.1.1, hgood.1.1.2, hgood.1.2, hgood.2⟩, h⟩, And.right⟩

/-- The fields of the front, as their bytes. -/
def recordFields (record : SpeakerAssetsWifiRecord) : List (List UInt8) :=
  [[0x45, 0x49, 0x53, 0x46], [speakerAssetsWifiWireVersion], [record.kind.code], leBytes 2 record.payload.length,
    leBytes 4 record.sequence.toNat, [0, 0, 0, 0]]

theorem recordFront_iff (hlong : 16 ≤ encoded.length) (hfits : record.payload.length < 256 ^ 2) :
    encoded.take 16 = recordFront record ↔
      encoded.take 4 = [0x45, 0x49, 0x53, 0x46] ∧ encoded.getD 4 0 = speakerAssetsWifiWireVersion ∧
        encoded.getD 5 0 = record.kind.code ∧ readLe encoded 6 2 = record.payload.length ∧
        readLe encoded 8 4 = record.sequence.toNat ∧ slice encoded 12 4 = [0, 0, 0, 0] := by
  have hflatten : recordFront record = (recordFields record).flatten := by simp [recordFront, recordFields]
  have hfields : encoded.take 16 = (recordFields record).flatten ↔
      chop encoded 0 [4, 1, 1, 2, 4, 4] = recordFields record :=
    take_eq_flatten_iff [4, 1, 1, 2, 4, 4] (by simp [recordFields]) hlong
  rw [hflatten, hfields, recordFields]
  simp only [chop, Nat.zero_add, Nat.reduceAdd, List.cons.injEq, and_true]
  rw [slice_byte_iff (by omega), slice_byte_iff (by omega), slice_le_iff (by omega) hfits,
    slice_le_iff (by omega) record.sequence.toNat_lt]
  rfl

/-- A record is its front, its tag and its payload. -/
theorem record_parts {width : ℕ} (h : encoded.length = 32 + width) :
    encoded = encoded.take 16 ++ slice encoded 16 16 ++ slice encoded 32 width := by
  have hrest : slice encoded 32 width = encoded.drop 32 := by
    refine List.take_of_length_le ?_
    rw [List.length_drop]
    omega
  rw [hrest, slice, ← List.take_add, List.take_append_drop]

/-- What the parts of a record are read as. -/
theorem read_parts {tag : List UInt8} (htag : tag.length = 16)
    (h : recordFront record ++ tag ++ record.payload = encoded) :
    encoded.length = 32 + record.payload.length ∧ encoded.take 16 = recordFront record ∧ slice encoded 16 16 = tag ∧
      slice encoded 32 record.payload.length = record.payload := by
  have hfront := length_recordFront record
  have hheader : (recordFront record ++ tag).length = 32 := by rw [List.length_append, hfront, htag]
  subst h
  refine ⟨?_, ?_, ?_, ?_⟩
  · rw [List.length_append, hheader]
  · rw [List.append_assoc, List.take_left' hfront]
  · rw [List.append_assoc, ← hfront, slice_append_right (Nat.le_refl _), Nat.sub_self, hfront,
      slice_append_left (by omega), slice, List.drop_zero, List.take_of_length_le (Nat.le_of_eq htag)]
  · rw [← hheader, slice_append_right (Nat.le_refl _), Nat.sub_self, slice_all]

/-- What is decoded is a record of the kind that was sent under the key, in its only encoding. -/
theorem record_iff (hsized : crypto.Sized) :
    decodeSpeakerAssetsWifiRecord crypto encoded sessionKey expectedKind = some record ↔
      record.kind = expectedKind ∧ encodeSpeakerAssetsWifiRecord crypto record sessionKey = some encoded := by
  have hheaderBytes : speakerAssetsWifiRecordHeaderBytes = 32 := rfl
  have hmaximum : speakerAssetsWifiRecordMaxBytes = 157 := rfl
  have hpayloadMaximum : speakerAssetsWifiFrameMaxBytes = 125 := rfl
  have htagBytes : speakerAssetsWifiTagBytes = 16 := rfl
  rw [encodeRecord_iff, decodeSpeakerAssetsWifiRecord, hheaderBytes, htagBytes]
  dsimp only
  constructor
  · intro h
    split_ifs at h with hfront hbody htag
    simp only [not_or, Nat.not_lt, not_not, Bool.not_eq_false] at hfront hbody htag
    obtain ⟨hlong, hshort, hkey, hmagic, hversion, hkind, hzero⟩ := hfront
    obtain ⟨hsequence, hheader, hfits, hlength⟩ := hbody
    have hpayload : (slice encoded 32 (readLe encoded 6 2)).length = readLe encoded 6 2 :=
      length_slice (Nat.le_of_eq hlength.symm)
    have hword : (UInt32.ofNat (readLe encoded 8 4)).toNat = readLe encoded 8 4 := word_toNat (readLe_lt (by omega))
    cases h
    have htake : encoded.take 16 =
        recordFront ⟨expectedKind, UInt32.ofNat (readLe encoded 8 4), slice encoded 32 (readLe encoded 6 2)⟩ := by
      refine (recordFront_iff (by omega) ?_).2 ⟨hmagic, hversion, hkind, hpayload.symm, hword.symm, hzero⟩
      rw [hpayload]
      exact readLe_lt (by omega)
    refine ⟨rfl, ⟨hsequence, ?_, ?_, hkey⟩, ?_⟩
    · rw [hpayload]
      exact hheader
    · rw [hpayload]
      exact hfits
    · rw [recordMessage, ← htake, htag]
      exact (record_parts hlength).symm
  · rintro ⟨rfl, ⟨hsequence, hheader, hfits, hkey⟩, h⟩
    obtain ⟨hlength, htake, htag, hpayload⟩ := read_parts (length_recordTag hsized sessionKey (recordMessage record)) h
    obtain ⟨hmagic, hversion, hkind, hcount, hnumber, hzero⟩ :=
      (recordFront_iff (by omega) (by omega)).1 htake
    rw [hcount, hnumber, UInt32.ofNat_toNat, htake, hpayload, htag, if_neg, if_neg, if_neg]
    · exact not_not.2 rfl
    · simp only [not_or, Nat.not_lt, not_not]
      exact ⟨hsequence, hheader, hfits, hlength⟩
    · simp only [not_or, Nat.not_lt, not_not, Bool.not_eq_false]
      exact ⟨by omega, by omega, hkey, hmagic, hversion, hkind, hzero⟩

/-- A kind of records has one encoding for each, and the decoder accepts no other bytes. -/
theorem records_canonical (hsized : crypto.Sized) (sessionKey : List UInt8) (kind : SpeakerAssetsWifiRecordKind) :
    Canonical
      (fun record => if record.kind = kind then encodeSpeakerAssetsWifiRecord crypto record sessionKey else none)
      (fun encoded => decodeSpeakerAssetsWifiRecord crypto encoded sessionKey kind) := by
  constructor
  · intro record encoded h
    split at h
    next hkind => exact (record_iff hsized).2 ⟨hkind, h⟩
    next => cases h
  · intro encoded record h
    obtain ⟨hkind, hencode⟩ := (record_iff hsized).1 h
    rw [if_pos hkind]
    exact hencode

/-- Two requests of 24 bytes, under a key of ones. -/
def someRequest : SpeakerAssetsWifiRecord := ⟨.request, 1, List.replicate 24 1⟩
def secondRequest : SpeakerAssetsWifiRecord := ⟨.request, 2, List.replicate 24 2⟩

def someKey : List UInt8 := List.replicate 32 1

def innerDigest : List UInt8 :=
  [0xBC, 0x0B, 0x61, 0x5C, 0xB9, 0x47, 0x41, 0x71, 0xD6, 0x4C, 0x09, 0x09, 0x5F, 0x0C, 0x3C, 0x10,
    0x58, 0xFC, 0xC8, 0x25, 0x66, 0x14, 0x80, 0x60, 0x5D, 0x72, 0x24, 0x33, 0xC8, 0x08, 0x2D, 0xE7]

def outerDigest : List UInt8 :=
  [0x00, 0x30, 0xAA, 0xB6, 0x54, 0x65, 0x7C, 0x8A, 0x38, 0x47, 0xE2, 0x13, 0x61, 0x47, 0xA1, 0xA2,
    0x31, 0x4D, 0x76, 0xAD, 0x0C, 0x62, 0xFB, 0xEF, 0xC7, 0x16, 0x15, 0x69, 0xC0, 0x82, 0x0D, 0x10]

def secondInnerDigest : List UInt8 :=
  [0x45, 0xEC, 0x26, 0xD6, 0xB4, 0x2B, 0x9E, 0x8D, 0x79, 0x60, 0x66, 0xAE, 0x09, 0xC8, 0x68, 0xBB,
    0x25, 0x81, 0x3C, 0x20, 0x9D, 0x97, 0xA5, 0x1B, 0x13, 0xBC, 0x2B, 0xDA, 0xFB, 0x53, 0x53, 0xD9]

def secondOuterDigest : List UInt8 :=
  [0xFD, 0xEC, 0xEE, 0x1F, 0x5B, 0x7A, 0x1A, 0x76, 0xE8, 0x05, 0xEA, 0x03, 0xEA, 0x9D, 0x57, 0x5F,
    0x85, 0xD2, 0x2A, 0x75, 0x54, 0xB1, 0x32, 0x74, 0x3C, 0xE9, 0x74, 0x9E, 0xF4, 0xFB, 0x92, 0x09]

/-- The block of `someKey` that HMAC puts in front of what it digests. -/
def somePad (byte : UInt8) : List UInt8 := (List.range 64).map fun i => someKey.getD i 0 ^^^ byte

/-- The digests of SHA-256 on the four inputs that sign the two requests; zeros elsewhere. -/
def someCrypto : SoundCrypto where
  crc32 := fun _ => 0
  sha256 message :=
    if message = somePad 0x36 ++ recordMessage someRequest then innerDigest
    else if message = somePad 0x5C ++ innerDigest then outerDigest
    else if message = somePad 0x36 ++ recordMessage secondRequest then secondInnerDigest
    else if message = somePad 0x5C ++ secondInnerDigest then secondOuterDigest
    else zeroDigest

theorem someCrypto_sized : someCrypto.Sized := by
  intro message
  simp only [someCrypto]
  repeat' split
  all_goals rfl

theorem records_canonical_request : Canonical
    (fun record => if record.kind = .request then encodeSpeakerAssetsWifiRecord someCrypto record someKey else none)
    (fun encoded => decodeSpeakerAssetsWifiRecord someCrypto encoded someKey .request) :=
  records_canonical someCrypto_sized someKey .request

/-! ### The requests of a connection -/

/-- The sequence after a request's: zero is left out. -/
def nextSequence (previous : UInt32) : UInt32 := if previous = 0xFFFFFFFF then 1 else previous + 1

/-- One request off the stream: its prefix, then the payload that the prefix announces. -/
def readRequest (crypto : SoundCrypto) (sessionKey : List UInt8) (previous : UInt32) (stream : List UInt8) :
    Option (SpeakerAssetsWifiRecord × List UInt8) :=
  let payloadLength := readLe stream 6 2
  if stream.length < speakerAssetsWifiRecordHeaderBytes ∨ payloadLength < speakerAssetsFrameHeaderBytes ∨
      speakerAssetsWifiFrameMaxBytes < payloadLength ∨
      stream.length < speakerAssetsWifiRecordHeaderBytes + payloadLength then none
  else
    match decodeSpeakerAssetsWifiRecord crypto (stream.take (speakerAssetsWifiRecordHeaderBytes + payloadLength))
      sessionKey
        .request with
    | none => none
    | some request =>
      if previous ≠ 0 ∧ request.sequence ≠ nextSequence previous then none
      else some (request, stream.drop (speakerAssetsWifiRecordHeaderBytes + payloadLength))

/-- The requests that are handed to the core. An answer says whether the core took the request and its response
    was sent and retired; without that, or when the answers end, the connection does. -/
def serveConnection (crypto : SoundCrypto) (sessionKey : List UInt8) :
    (answers : List Bool) → (previous : UInt32) → (stream : List UInt8) → List SpeakerAssetsWifiRecord
  | [], _, _ => []
  | goesOn :: answers, previous, stream =>
    match readRequest crypto sessionKey previous stream with
    | none => []
    | some (request, rest) =>
      request :: if goesOn then serveConnection crypto sessionKey answers request.sequence rest else []

/-- What bears the right tag in the stream was signed with the session's key: no tag is forged. -/
def Authentic (crypto : SoundCrypto) (sessionKey : List UInt8) (signed : List (List UInt8))
    (stream : List UInt8) : Prop :=
  ∀ offset width, recordTag crypto sessionKey (slice stream offset 16 ++ slice stream (offset + 32) width) =
    slice stream (offset + 16) 16 → slice stream offset 16 ++ slice stream (offset + 32) width ∈ signed

/-- Each request has the sequence after the one before it. -/
def InSequence : UInt32 → List SpeakerAssetsWifiRecord → Prop
  | _, [] => True
  | previous, record :: records =>
    record.sequence ≠ 0 ∧ (previous ≠ 0 → record.sequence = nextSequence previous) ∧ InSequence record.sequence records

variable {signed : List (List UInt8)} {stream rest : List UInt8} {previous : UInt32} {request : SpeakerAssetsWifiRecord}
  {records : List SpeakerAssetsWifiRecord}

theorem Authentic.drop (h : Authentic crypto sessionKey signed stream) (n : ℕ) :
    Authentic crypto sessionKey signed (stream.drop n) := by
  intro offset width htag
  rw [slice_drop, slice_drop, slice_drop, ← Nat.add_assoc, ← Nat.add_assoc] at htag
  rw [slice_drop, slice_drop, ← Nat.add_assoc]
  exact h (n + offset) width htag

theorem slice_take_inside {bytes : List UInt8} {total offset width : ℕ} (h : offset + width ≤ total) :
    slice (bytes.take total) offset width = slice bytes offset width := by
  rw [slice, slice, List.drop_take, List.take_take, Nat.min_eq_left (by omega)]

/-- A request that is read is next in sequence, and its message was signed. -/
theorem readRequest_some (hsized : crypto.Sized) (hauthentic : Authentic crypto sessionKey signed stream)
    (h : readRequest crypto sessionKey previous stream = some (request, rest)) :
    request.kind = .request ∧ request.sequence ≠ 0 ∧ (previous ≠ 0 → request.sequence = nextSequence previous) ∧
      request.payload.length ≤ speakerAssetsWifiFrameMaxBytes ∧ recordMessage request ∈ signed ∧
      Authentic crypto sessionKey signed rest := by
  unfold readRequest at h
  dsimp only at h
  split at h
  · cases h
  next hshort =>
    simp only [not_or, Nat.not_lt] at hshort
    split at h
    · cases h
    next decoded hdecode =>
      split at h
      · cases h
      next horder =>
        cases h
        obtain ⟨hkind, hencode⟩ := (record_iff hsized).1 hdecode
        obtain ⟨hsendable, hbytes⟩ := encodeRecord_iff.1 hencode
        obtain ⟨hlength, htake, htag, hpayload⟩ :=
          read_parts (length_recordTag hsized sessionKey (recordMessage request)) hbytes
        refine ⟨hkind, hsendable.sequence, ?_, hsendable.fits, ?_, hauthentic.drop _⟩
        · intro hprevious
          by_contra hne
          exact horder ⟨hprevious, hne⟩
        · have htotal : speakerAssetsWifiRecordHeaderBytes + readLe stream 6 2 = 32 + request.payload.length := by
            rw [← hlength, List.length_take, Nat.min_eq_left hshort.2.2.2]
          rw [htotal] at htake htag hpayload
          rw [List.take_take, Nat.min_eq_left (by omega)] at htake
          rw [slice_take_inside (by omega)] at htag
          rw [slice_take_inside (Nat.le_refl _)] at hpayload
          have hfront : slice stream 0 16 = recordFront request := htake
          have hsigned := hauthentic 0 request.payload.length
          rw [Nat.zero_add, Nat.zero_add, hfront, hpayload, htag] at hsigned
          exact hsigned rfl

theorem serve_requests (hsized : crypto.Sized) (answers : List Bool)
    (hauthentic : Authentic crypto sessionKey signed stream) :
    InSequence previous (serveConnection crypto sessionKey answers previous stream) ∧
      ∀ record ∈ serveConnection crypto sessionKey answers previous stream,
        record.kind = .request ∧ record.payload.length ≤ speakerAssetsWifiFrameMaxBytes ∧
        recordMessage record ∈ signed := by
  induction answers generalizing previous stream with
  | nil => exact ⟨trivial, fun record hrecord => absurd hrecord List.not_mem_nil⟩
  | cons goesOn answers ih =>
    rw [serveConnection]
    split
    · exact ⟨trivial, fun record hrecord => absurd hrecord List.not_mem_nil⟩
    next request rest hread =>
      obtain ⟨hkind, hnonzero, hnext, hfits, hsigned, hrest⟩ := readRequest_some hsized hauthentic hread
      obtain ⟨hsequence, hall⟩ := @ih rest request.sequence hrest
      cases goesOn with
      | true =>
        refine ⟨⟨hnonzero, hnext, hsequence⟩, fun record hrecord => ?_⟩
        rcases List.mem_cons.1 hrecord with rfl | hlater
        · exact ⟨hkind, hfits, hsigned⟩
        · exact hall record hlater
      | false =>
        refine ⟨⟨hnonzero, hnext, trivial⟩, fun record hrecord => ?_⟩
        cases List.mem_singleton.1 hrecord
        exact ⟨hkind, hfits, hsigned⟩

theorem serve_length (answers : List Bool) (previous : UInt32) (stream : List UInt8) :
    (serveConnection crypto sessionKey answers previous stream).length ≤ answers.length := by
  induction answers generalizing previous stream with
  | nil => exact Nat.le_refl 0
  | cons goesOn answers ih =>
    rw [serveConnection]
    split
    · exact Nat.zero_le _
    next request rest _ =>
      cases goesOn with
      | true => exact Nat.succ_le_succ (ih request.sequence rest)
      | false => exact Nat.succ_le_succ (Nat.zero_le _)

/-! ### No request twice -/

theorem nextSequence_toNat (h : previous ≠ 0) :
    (nextSequence previous).toNat - 1 = (previous.toNat - 1 + 1) % (2 ^ 32 - 1) := by
  have hlt := previous.toNat_lt
  have hpos : 0 < previous.toNat := Nat.pos_of_ne_zero fun hzero => h (UInt32.toNat_inj.1 hzero)
  rw [nextSequence]
  split
  next hlast =>
    rw [hlast]
    decide
  next hnot =>
    have hbelow : previous.toNat ≠ 2 ^ 32 - 1 := fun heq => hnot (UInt32.toNat_inj.1 heq)
    rw [UInt32.toNat_add, UInt32.toNat_one, Nat.mod_eq_of_lt (by omega), Nat.mod_eq_of_lt (by omega)]
    omega

theorem nextSequence_ne_zero (previous : UInt32) : nextSequence previous ≠ 0 := by
  rw [nextSequence]
  split
  · decide
  next hnot =>
    intro hzero
    have hlt := previous.toNat_lt
    have hbelow : previous.toNat ≠ 2 ^ 32 - 1 := fun heq => hnot (UInt32.toNat_inj.1 heq)
    have hnat := congrArg UInt32.toNat hzero
    rw [UInt32.toNat_add, UInt32.toNat_one, Nat.mod_eq_of_lt (by omega)] at hnat
    exact absurd hnat (Nat.succ_ne_zero _)

theorem iterate_nextSequence (h : previous ≠ 0) (i : ℕ) : nextSequence^[i] previous ≠ 0 ∧
    (nextSequence^[i] previous).toNat - 1 = (previous.toNat - 1 + i) % (2 ^ 32 - 1) := by
  induction i with
  | zero =>
    have hlt := previous.toNat_lt
    have hpos : 0 < previous.toNat := Nat.pos_of_ne_zero fun hzero => h (UInt32.toNat_inj.1 hzero)
    rw [Function.iterate_zero_apply]
    refine ⟨h, (Nat.mod_eq_of_lt ?_).symm⟩
    omega
  | succ i ih =>
    rw [Function.iterate_succ_apply']
    refine ⟨nextSequence_ne_zero _, ?_⟩
    rw [nextSequence_toNat ih.1, ih.2, Nat.mod_add_mod, Nat.add_assoc]

/-- The sequences of a run are determined by the first. -/
theorem inSequence_eq (h : InSequence previous (request :: records)) : (request :: records).map (·.sequence) =
    (List.range (records.length + 1)).map fun i => nextSequence^[i] request.sequence := by
  induction records generalizing previous request with
  | nil => rfl
  | cons second records ih =>
    obtain ⟨hnonzero, -, hrest⟩ := h
    have hnext : second.sequence = nextSequence request.sequence := hrest.2.1 hnonzero
    rw [List.map_cons, ih hrest, List.length_cons, List.range_succ_eq_map (n := records.length + 1), List.map_cons,
      List.map_map, hnext]
    rfl

/-- Fewer requests than there are sequences have different ones. -/
theorem inSequence_nodup (h : InSequence previous records) (hfew : records.length < 2 ^ 32) :
    (records.map (·.sequence)).Nodup := by
  cases records with
  | nil => exact List.nodup_nil
  | cons first records =>
    rw [List.length_cons] at hfew
    rw [inSequence_eq h]
    refine List.Nodup.map_on (fun i hi j hj hsame => ?_) List.nodup_range
    rw [List.mem_range] at hi hj
    have hnumber := congrArg (fun sequence => UInt32.toNat sequence - 1) hsame
    rw [(iterate_nextSequence h.1 i).2, (iterate_nextSequence h.1 j).2] at hnumber
    have hcancel : i % (2 ^ 32 - 1) = j % (2 ^ 32 - 1) := Nat.ModEq.add_left_cancel' _ hnumber
    rwa [Nat.mod_eq_of_lt (by omega), Nat.mod_eq_of_lt (by omega)] at hcancel

theorem code_inj {first second : SpeakerAssetsWifiRecordKind} (h : first.code = second.code) : first = second := by
  cases first <;> cases second <;> first | rfl | exact absurd h (by decide)

/-- The message of a record says which record it is. -/
theorem recordMessage_inj (hrecord : record.payload.length < 256 ^ 2) (hother : other.payload.length < 256 ^ 2)
    (h : recordMessage record = recordMessage other) : record = other := by
  have hfront (any : SpeakerAssetsWifiRecord) : (recordMessage any).take 16 = recordFront any ∧
      (recordMessage any).drop 16 = any.payload ∧ 16 ≤ (recordMessage any).length := by
    have hlength := length_recordFront any
    refine ⟨List.take_left' hlength, List.drop_left' hlength, ?_⟩
    rw [recordMessage, List.length_append, hlength]
    omega
  obtain ⟨htake, hdrop, hlong⟩ := hfront record
  obtain ⟨hotherTake, hotherDrop, -⟩ := hfront other
  obtain ⟨-, -, hkind, -, hsequence, -⟩ := (recordFront_iff hlong hrecord).1 htake
  rw [h] at hkind hsequence hdrop
  obtain ⟨-, -, hotherKind, -, hotherSequence, -⟩ := (recordFront_iff (h ▸ hlong) hother).1 hotherTake
  have hkinds : record.kind = other.kind := code_inj (hkind.symm.trans hotherKind)
  have hsequences : record.sequence = other.sequence := UInt32.toNat_inj.1 (hsequence.symm.trans hotherSequence)
  have hpayloads : record.payload = other.payload := hdrop.symm.trans hotherDrop
  cases record
  cases other
  cases hkinds
  cases hsequences
  cases hpayloads
  rfl

/-- However the bytes of a connection were made up, the core gets requests that the key's holder made, in the
    order of their sequences, without a gap and none twice: no tag being forged, nothing is injected, changed,
    replayed, skipped or sent back from the responses. -/
theorem connection_requests (hsized : crypto.Sized) (made : List SpeakerAssetsWifiRecord)
    (hmade : ∀ message ∈ signed, ∃ record ∈ made, message = recordMessage record)
    (hfits : ∀ record ∈ made, record.payload.length < 256 ^ 2) (hauthentic : Authentic crypto sessionKey signed stream)
    (answers : List Bool) :
    (∀ record ∈ serveConnection crypto sessionKey answers 0 stream, record ∈ made ∧ record.kind = .request) ∧
      InSequence 0 (serveConnection crypto sessionKey answers 0 stream) ∧
      (answers.length < 2 ^ 32 → ((serveConnection crypto sessionKey answers 0 stream).map (·.sequence)).Nodup) := by
  obtain ⟨hsequence, hall⟩ := @serve_requests crypto sessionKey signed stream 0 hsized answers hauthentic
  refine ⟨fun record hrecord => ?_, hsequence, fun hfew => inSequence_nodup hsequence ?_⟩
  · obtain ⟨hkind, hpayload, hsigned⟩ := hall record hrecord
    obtain ⟨other, hother, hmessage⟩ := hmade _ hsigned
    have hmaximum : speakerAssetsWifiFrameMaxBytes = 125 := rfl
    rw [recordMessage_inj (by omega) (hfits other hother) hmessage]
    exact ⟨hother, (recordMessage_inj (by omega) (hfits other hother) hmessage) ▸ hkind⟩
  · exact Nat.lt_of_le_of_lt (serve_length answers 0 stream) hfew

/-- Only the messages of the two requests have a tag other than zeros. -/
theorem someCrypto_tag (message : List UInt8) :
    message ∈ [recordMessage someRequest, recordMessage secondRequest] ∨
      recordTag someCrypto someKey message = List.replicate 16 0 := by
  by_cases hfirst : message = recordMessage someRequest
  · exact .inl (List.mem_cons.2 (.inl hfirst))
  by_cases hsecond : message = recordMessage secondRequest
  · exact .inl (List.mem_cons.2 (.inr (List.mem_singleton.2 hsecond)))
  refine .inr ?_
  have houter (digest : List UInt8) : somePad 0x36 ++ message ≠ somePad 0x5C ++ digest := fun heq =>
    absurd (List.append_inj_left heq rfl) (by decide)
  have hinner : someCrypto.sha256 (somePad 0x36 ++ message) = zeroDigest := by
    simp only [someCrypto]
    rw [if_neg fun heq => hfirst (List.append_cancel_left heq), if_neg (houter _),
      if_neg fun heq => hsecond (List.append_cancel_left heq), if_neg (houter _)]
  rw [somePad] at hinner
  rw [recordTag, soundHmac, hinner]
  decide +kernel

def signedRecord (record : SpeakerAssetsWifiRecord) : List UInt8 :=
  recordFront record ++ recordTag someCrypto someKey (recordMessage record) ++ record.payload

def someStream : List UInt8 := signedRecord someRequest ++ signedRecord secondRequest

theorem someStream_authentic :
    Authentic someCrypto someKey [recordMessage someRequest, recordMessage secondRequest] someStream := by
  intro offset width htag
  rcases someCrypto_tag (slice someStream offset 16 ++ slice someStream (offset + 32) width) with h | h
  · exact h
  · rw [h] at htag
    have hlength := congrArg List.length htag
    have hbytes : someStream.length = 112 := by decide +kernel
    rw [List.length_replicate, slice, List.length_take, List.length_drop, hbytes] at hlength
    have hnone : ∀ offset < 81, slice someStream (offset + 16) 16 ≠ List.replicate 16 0 := by decide +kernel
    exact absurd htag.symm (hnone offset (by omega))

theorem connection_requests_two : ∃ stream,
    serveConnection someCrypto someKey [true, true, true] 0 stream = [someRequest, secondRequest] ∧
    (∀ record ∈ serveConnection someCrypto someKey [true, true, true] 0 stream,
      record ∈ [someRequest, secondRequest] ∧ record.kind = .request) ∧
      InSequence 0 (serveConnection someCrypto someKey [true, true, true] 0 stream) ∧
      ([true, true, true].length < 2 ^ 32 →
        ((serveConnection someCrypto someKey [true, true, true] 0 stream).map (·.sequence)).Nodup) := by
  have hserved : serveConnection someCrypto someKey [true, true, true] 0 someStream =
      [someRequest, secondRequest] := by decide +kernel
  have hauthentic := someStream_authentic
  generalize someStream = stream at hserved hauthentic
  have hmade : ∀ message ∈ [recordMessage someRequest, recordMessage secondRequest],
      ∃ record ∈ [someRequest, secondRequest], message = recordMessage record := by
    intro message hmessage
    rcases List.mem_cons.1 hmessage with h | h
    · exact ⟨someRequest, List.mem_cons_self, h⟩
    · exact ⟨secondRequest, List.mem_cons_of_mem _ List.mem_cons_self, List.mem_singleton.1 h⟩
  have hshort : ∀ record ∈ [someRequest, secondRequest], record.payload.length < 256 := by decide
  have hfits : ∀ record ∈ [someRequest, secondRequest], record.payload.length < 256 ^ 2 := fun record hrecord =>
    Nat.lt_of_lt_of_le (hshort record hrecord) (Nat.le_self_pow (by decide) 256)
  exact ⟨stream, hserved, connection_requests someCrypto_sized [someRequest, secondRequest] hmade hfits hauthentic
    [true, true, true]⟩

end CodexKeyboard.SoundSync
