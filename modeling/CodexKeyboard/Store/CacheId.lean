import CodexKeyboard.Store.Schema

/-! `CacheId`: the name of one summary generation in the audio cache, and its textual reference
    `{sha256(task) in hex}/{generation}`. -/

namespace CodexKeyboard.Store

variable {P : Type}

structure CacheId where
  taskHash : Digest
  generation : Nat
  deriving DecidableEq

/-- `HEX[n]`. -/
def hexChar (n : Nat) : Char := Nat.digitChar n

def encodeHex (bytes : List UInt8) : List Char :=
  bytes.flatMap fun b => [hexChar (b.toNat / 16), hexChar (b.toNat % 16)]

/-- The `digit` of `decode_hex_pair`. -/
def hexDigit (c : Char) : Option Nat :=
  if '0' ≤ c && c ≤ '9' then some (c.toNat - '0'.toNat)
  else if 'a' ≤ c && c ≤ 'f' then some (c.toNat - 'a'.toNat + 10)
  else none

/-- `chunks_exact(2)` through `decode_hex_pair`. -/
def decodeHex : List Char → Option (List UInt8)
  | a :: b :: rest => do
    let high ← hexDigit a
    let low ← hexDigit b
    let bytes ← decodeHex rest
    some (UInt8.ofNat (high * 16 + low) :: bytes)
  | _ => some []

def isTaskHash (value : List Char) : Bool :=
  value.length == 64 && value.all fun c => c.isDigit || ('a' ≤ c && c ≤ 'f')

def isCanonicalGeneration (value : List Char) : Bool :=
  (value.head?.any fun c => '1' ≤ c && c ≤ '9') && value.all Char.isDigit

namespace CacheId

def forTask (env : Env P) (task : String) (generation : Nat) : Option CacheId :=
  if generation = 0 then none else some ⟨env.sha256 task, generation⟩

def reference (id : CacheId) : String :=
  String.ofList (encodeHex id.taskHash.toList ++ '/' :: Nat.toDigits 10 id.generation)

def fromReference (reference : String) : Option CacheId :=
  match reference.toList.splitOn '/' with
  | [hash, generation] =>
    if isTaskHash hash && isCanonicalGeneration generation then
      let value := Nat.ofDigitChars 10 generation 0
      if value ≤ u64Max ∧ value ≠ 0 then do
        let decoded ← decodeHex hash
        if h : decoded.toArray.size = 32 then some ⟨⟨decoded.toArray, h⟩, value⟩ else none
      else none
    else none
  | _ => none

end CacheId

/-! ### A reference reads back as the identifier it was made from -/

theorem hexDigit_hexChar : ∀ n < 16, hexDigit (hexChar n) = some n := by decide

theorem hexChar_hex : ∀ n < 16,
    ((hexChar n).isDigit || ('a' ≤ hexChar n && hexChar n ≤ 'f')) = true ∧ hexChar n ≠ '/' := by
  decide

theorem decodeHex_encodeHex (bytes : List UInt8) : decodeHex (encodeHex bytes) = some bytes := by
  induction bytes with
  | nil => rfl
  | cons b bytes ih =>
    have hb : b.toNat < 256 := b.toNat_lt
    have hhigh := hexDigit_hexChar (b.toNat / 16) (by omega)
    have hlow := hexDigit_hexChar (b.toNat % 16) (by omega)
    have hval : UInt8.ofNat (b.toNat / 16 * 16 + b.toNat % 16) = b := by
      rw [Nat.div_add_mod']
      exact UInt8.ofNat_toNat
    change decodeHex (hexChar (b.toNat / 16) :: hexChar (b.toNat % 16) :: encodeHex bytes) = _
    rw [decodeHex, hhigh, hlow, ih]
    exact congrArg (fun x => some (x :: bytes)) hval

theorem mem_encodeHex {bytes : List UInt8} {c : Char} (h : c ∈ encodeHex bytes) :
    ∃ n < 16, c = hexChar n := by
  simp only [encodeHex, List.mem_flatMap, List.mem_cons, List.not_mem_nil, or_false] at h
  obtain ⟨b, _, rfl | rfl⟩ := h
  · exact ⟨b.toNat / 16, by have := b.toNat_lt; omega, rfl⟩
  · exact ⟨b.toNat % 16, by omega, rfl⟩

theorem encodeHex_length (bytes : List UInt8) : (encodeHex bytes).length = 2 * bytes.length := by
  induction bytes with
  | nil => rfl
  | cons b bytes ih =>
    have hcons : encodeHex (b :: bytes) =
        hexChar (b.toNat / 16) :: hexChar (b.toNat % 16) :: encodeHex bytes := rfl
    rw [hcons, List.length_cons, List.length_cons, ih, List.length_cons]
    omega

theorem isTaskHash_encodeHex (hash : Digest) : isTaskHash (encodeHex hash.toList) = true := by
  rw [isTaskHash, Bool.and_eq_true]
  refine ⟨by simp [encodeHex_length], ?_⟩
  rw [List.all_eq_true]
  intro c hc
  obtain ⟨n, hn, rfl⟩ := mem_encodeHex hc
  exact (hexChar_hex n hn).1

theorem isDigit_of_mem_toDigits {n : Nat} {c : Char} (h : c ∈ Nat.toDigits 10 n) :
    c.isDigit = true := Nat.isDigit_of_mem_toDigits (by omega) (by omega) h

/-- A positive number is written without a leading zero. -/
theorem toDigits_head : ∀ {n : Nat}, 0 < n →
    ((Nat.toDigits 10 n).head?.any fun c => '1' ≤ c && c ≤ '9') = true := by
  intro n
  induction n using Nat.strongRecOn with
  | ind n ih =>
    intro hn
    rcases Nat.lt_or_ge n 10 with hlt | hge
    · rw [Nat.toDigits_of_lt_base hlt]
      interval_cases n <;> rfl
    · have hrec := ih (n / 10) (by omega) (by omega)
      rw [Nat.toDigits_of_base_le (by omega) hge]
      cases hd : Nat.toDigits 10 (n / 10) with
      | nil => rw [hd] at hrec; simp at hrec
      | cons c cs => rw [hd] at hrec; simpa using hrec

theorem fromReference_reference (id : CacheId) (hpos : 0 < id.generation)
    (hmax : id.generation ≤ u64Max) : CacheId.fromReference id.reference = some id := by
  have hhash : '/' ∉ encodeHex id.taskHash.toList := by
    intro hmem
    obtain ⟨n, hn, heq⟩ := mem_encodeHex hmem
    exact (hexChar_hex n hn).2 heq.symm
  have hgen : '/' ∉ Nat.toDigits 10 id.generation := by
    intro hmem
    have := isDigit_of_mem_toDigits hmem
    revert this
    decide
  have hsplit : id.reference.toList.splitOn '/' =
      [encodeHex id.taskHash.toList, Nat.toDigits 10 id.generation] := by
    have hnone : ∀ part ∈ [encodeHex id.taskHash.toList, Nat.toDigits 10 id.generation], '/' ∉ part := by
      simp [hhash, hgen]
    have h := List.splitOn_intercalate '/' hnone (by simp)
    simpa [CacheId.reference, List.intercalate, List.intersperse] using h
  have hcanon : isCanonicalGeneration (Nat.toDigits 10 id.generation) = true := by
    rw [isCanonicalGeneration, Bool.and_eq_true, List.all_eq_true]
    exact ⟨toDigits_head hpos, fun c hc => isDigit_of_mem_toDigits hc⟩
  rw [CacheId.fromReference, hsplit]
  simp only [isTaskHash_encodeHex, hcanon, Bool.and_self, if_true, Nat.ofDigitChars_ten_toDigits,
    decodeHex_encodeHex]
  rw [if_pos ⟨hmax, by omega⟩]
  obtain ⟨⟨hash, hsize⟩, generation⟩ := id
  simp [hsize, Vector.toList]

end CodexKeyboard.Store
