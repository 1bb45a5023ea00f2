import CodexKeyboard.Store.CacheId
import CodexKeyboard.Lan.Codec

/-! The encrypted objects of the audio cache: three files for each summary generation, each sealed
    under a key of its own and bound to the generation and to its kind.

    AES-256-GCM and HMAC-SHA256 (for HKDF) are those of `Crypto`. Key material is read once and
    stays fixed; permissions and owners of files are left out. -/

namespace CodexKeyboard.Cache

open Schemes Transact Schemes.Bytes Store Lan

def cacheMagic : List UInt8 := [0x45, 0x43, 0x49, 0x43, 0x41, 0x43, 0x48, 0x45]
def cacheVersion : UInt8 := 1
def headerBytes : Nat := 48
def tagBytes : Nat := 16
def saltBytes : Nat := 16
def nonceBytes : Nat := 12
def maxGenerationPlaintextBytes : Nat := 32 * 1024 * 1024
def maxManifestBytes : Nat := 1024 * 1024
def maxAudioObjectBytes : Nat := 16 * 1024 * 1024

inductive CacheError where
  | io | invalidGeneration | objectTooLarge | generationTooLarge | capacityExceeded
  | alreadyPublished | missingObject | invalidReference | missingReference | corrupt
  deriving DecidableEq, Repr

inductive ObjectKind where
  | keyCheck | manifest | qwenWav | deviceEiad
  deriving DecidableEq, Repr

namespace ObjectKind

/-- `ObjectKind::ALL`: the key marker is no object of a generation. -/
def all : List ObjectKind := [.manifest, .qwenWav, .deviceEiad]

def code : ObjectKind → UInt8
  | .keyCheck => 0
  | .manifest => 1
  | .qwenWav => 2
  | .deviceEiad => 3

def ofCode? (code : UInt8) : Option ObjectKind :=
  if code = 0 then some .keyCheck
  else if code = 1 then some .manifest
  else if code = 2 then some .qwenWav
  else if code = 3 then some .deviceEiad
  else none

def fileName : ObjectKind → String
  | .keyCheck => ".key-check.enc"
  | .manifest => "manifest.json.enc"
  | .qwenWav => "qwen.wav.enc"
  | .deviceEiad => "device.eiad.enc"

/-- `KEY_MARKER_PLAINTEXT.len()` for the key marker. -/
def maxPlaintextBytes : ObjectKind → Nat
  | .keyCheck => 29
  | .manifest => maxManifestBytes
  | .qwenWav | .deviceEiad => maxAudioObjectBytes

@[simp] theorem ofCode?_code (kind : ObjectKind) : ofCode? kind.code = some kind := by
  cases kind <;> rfl

theorem maxPlaintextBytes_lt (kind : ObjectKind) : kind.maxPlaintextBytes < 256 ^ 8 := by
  cases kind <;> decide

end ObjectKind

structure CacheBundle where
  manifestJson : List UInt8
  qwenWav : List UInt8
  deviceEiad : List UInt8
  deriving DecidableEq, Repr

def validateBundle (bundle : CacheBundle) : Except CacheError Unit := do
  ensure (bundle.manifestJson.length ≤ ObjectKind.manifest.maxPlaintextBytes ∧
    bundle.qwenWav.length ≤ ObjectKind.qwenWav.maxPlaintextBytes ∧
    bundle.deviceEiad.length ≤ ObjectKind.deviceEiad.maxPlaintextBytes) .objectTooLarge
  ensure (bundle.manifestJson.length + bundle.qwenWav.length + bundle.deviceEiad.length ≤
    maxGenerationPlaintextBytes) .generationTooLarge

def encodedBundleBytes (bundle : CacheBundle) : Nat :=
  bundle.manifestJson.length + bundle.qwenWav.length + bundle.deviceEiad.length +
    (headerBytes + tagBytes) * ObjectKind.all.length

/-! ### Sealing -/

/-- What `OsRng` draws for one object. -/
structure Seed where
  salt : Vector UInt8 16
  nonce : Vector UInt8 12
  deriving DecidableEq

/-- `to_be_bytes` of a `u64`. -/
def beBytes (value : Nat) : List UInt8 := (leBytes 8 value).reverse

def beNat (bytes : List UInt8) : Nat := leNat bytes.reverse

def encodeHeader (kind : ObjectKind) (plaintextBytes : Nat) (seed : Seed) : List UInt8 :=
  [cacheMagic, [cacheVersion, kind.code, 0, 0], beBytes plaintextBytes, seed.salt.toList,
    seed.nonce.toList].flatten

/-- The kind, the length of the plaintext, the salt and the nonce of a header. -/
def decodeHeader (header : List UInt8) :
    Except CacheError (ObjectKind × Nat × List UInt8 × List UInt8) := do
  ensure (slice header 0 8 = cacheMagic ∧ (slice header 8 4).getD 0 0 = cacheVersion ∧
    (slice header 8 4).getD 2 0 = 0 ∧ (slice header 8 4).getD 3 0 = 0) .corrupt
  let kind ← orThrow .corrupt (ObjectKind.ofCode? ((slice header 8 4).getD 1 0))
  .ok (kind, beNat (slice header 12 8), slice header 20 saltBytes, slice header 36 nonceBytes)

def objectAad (header : List UInt8) (id : CacheId) : List UInt8 :=
  header ++ id.taskHash.toList ++ beBytes id.generation

/-- The bytes of a string literal of the source, all of them ASCII. -/
def asciiBytes (text : String) : List UInt8 := text.toList.map fun c => UInt8.ofNat c.toNat

/-- HKDF-SHA256: extract with the salt, then the one block of 32 bytes expanded. -/
def deriveObjectKey (c : Crypto) (rootKey : List UInt8) (id : CacheId) (kind : ObjectKind)
    (salt : List UInt8) : List UInt8 :=
  c.hmac (c.hmac salt rootKey) (asciiBytes "easy-codex-input/cache/object-key/v1" ++
    id.taskHash.toList ++ beBytes id.generation ++ [kind.code] ++ [1])

def encryptObject (c : Crypto) (rootKey : List UInt8) (id : CacheId) (kind : ObjectKind)
    (plaintext : List UInt8) (seed : Seed) : List UInt8 :=
  let header := encodeHeader kind plaintext.length seed
  let encrypted := c.encrypt (deriveObjectKey c rootKey id kind seed.salt.toList) seed.nonce.toList
    (objectAad header id) plaintext
  header ++ (encrypted.1 ++ encrypted.2)

def decryptObject (c : Crypto) (rootKey : List UInt8) (id : CacheId) (expectedKind : ObjectKind)
    (encoded : List UInt8) : Except CacheError (List UInt8) := do
  ensure (headerBytes + tagBytes ≤ encoded.length) .corrupt
  let header := encoded.take headerBytes
  let (kind, plaintextBytes, salt, nonce) ← decodeHeader header
  ensure (kind = expectedKind ∧ plaintextBytes ≤ expectedKind.maxPlaintextBytes) .corrupt
  ensure (encoded.length = headerBytes + plaintextBytes + tagBytes) .corrupt
  let payload := encoded.drop headerBytes
  let plaintext ← orThrow .corrupt
    (c.decrypt (deriveObjectKey c rootKey id kind salt) nonce (objectAad header id)
      (payload.take (payload.length - tagBytes)) (payload.drop (payload.length - tagBytes)))
  ensure (plaintext.length = plaintextBytes) .corrupt
  .ok plaintext

/-! ### What is sealed opens -/

section Sealing

variable (c : Crypto) (rootKey : List UInt8) (id : CacheId) (kind : ObjectKind)
  (plaintext : List UInt8) (seed : Seed)

@[simp] theorem length_beBytes (value : Nat) : (beBytes value).length = 8 := by simp [beBytes]

theorem beNat_beBytes {value : Nat} (h : value < 256 ^ 8) : beNat (beBytes value) = value := by
  rw [beNat, beBytes, List.reverse_reverse, leNat_leBytes h]

theorem chop_encodeHeader (plaintextBytes : Nat) :
    chop (encodeHeader kind plaintextBytes seed) 0 [8, 4, 8, 16, 12] =
      [cacheMagic, [cacheVersion, kind.code, 0, 0], beBytes plaintextBytes, seed.salt.toList,
        seed.nonce.toList] := by
  have hls : [cacheMagic, [cacheVersion, kind.code, 0, 0], beBytes plaintextBytes, seed.salt.toList,
      seed.nonce.toList].map List.length = [8, 4, 8, 16, 12] := by
    simp [cacheMagic]
  rw [← hls]
  exact chop_flatten _

@[simp] theorem length_encodeHeader (plaintextBytes : Nat) :
    (encodeHeader kind plaintextBytes seed).length = headerBytes := by
  simp [encodeHeader, cacheMagic, headerBytes]

theorem decodeHeader_encodeHeader {plaintextBytes : Nat} (h : plaintextBytes < 256 ^ 8) :
    decodeHeader (encodeHeader kind plaintextBytes seed) =
      .ok (kind, plaintextBytes, seed.salt.toList, seed.nonce.toList) := by
  have hchop := chop_encodeHeader kind seed plaintextBytes
  simp only [chop, Nat.zero_add, List.cons.injEq, and_true] at hchop
  obtain ⟨hmagic, hcodes, hbytes, hsalt, hnonce⟩ := hchop
  simp [decodeHeader, hmagic, hcodes, hbytes, hsalt, hnonce, saltBytes, nonceBytes, ensure, orThrow,
    beNat_beBytes h, bind, Except.bind]

@[simp] theorem length_encryptObject : (encryptObject c rootKey id kind plaintext seed).length =
    headerBytes + plaintext.length + tagBytes := by
  simp only [encryptObject, List.length_append, length_encodeHeader, c.ciphertext_length, c.tag_length,
    tagBytes, Nat.add_assoc]

/-- An object opens under the generation and the kind it was sealed for. -/
theorem decryptObject_encryptObject (h : plaintext.length ≤ kind.maxPlaintextBytes) :
    decryptObject c rootKey id kind (encryptObject c rootKey id kind plaintext seed) = .ok plaintext := by
  have hdecode := decodeHeader_encodeHeader kind seed (Nat.lt_of_le_of_lt h kind.maxPlaintextBytes_lt)
  have hlength := length_encryptObject c rootKey id kind plaintext seed
  rw [encryptObject] at hlength ⊢
  generalize hheader : encodeHeader kind plaintext.length seed = header at *
  have hheaderLength : header.length = headerBytes := by rw [← hheader, length_encodeHeader]
  generalize hencrypted : c.encrypt (deriveObjectKey c rootKey id kind seed.salt.toList)
    seed.nonce.toList (objectAad header id) plaintext = encrypted at *
  have htag : encrypted.2.length = tagBytes := by rw [← hencrypted, c.tag_length, tagBytes]
  have hsplit : (encrypted.1 ++ encrypted.2).length - tagBytes = encrypted.1.length := by
    rw [List.length_append, htag, Nat.add_sub_cancel]
  have hopen := (c.decrypt_iff _ _ _ encrypted.1 encrypted.2 plaintext).2 hencrypted
  have hlong : headerBytes + tagBytes ≤ (header ++ (encrypted.1 ++ encrypted.2)).length := by omega
  unfold decryptObject
  simp only [bind_ok, List.take_left' hheaderLength, List.drop_left' hheaderLength, hdecode, hsplit,
    List.take_left, List.drop_left]
  exact ⟨(), ensure_of hlong, _, rfl, (), ensure_of ⟨rfl, h⟩, (), ensure_of hlength, plaintext,
    orThrow_ok.2 hopen, (), ensure_of rfl, rfl⟩

end Sealing

end CodexKeyboard.Cache
