import CodexKeyboard.Observer.Capture
import CodexKeyboard.Store.CacheId

/-! The device secret: 64 hexadecimal digits and a line feed in a private file. The decoder slices the text
    by byte offsets and leaves each pair to the integer parser of the standard library. -/

namespace CodexKeyboard.Provisioning

open Schemes Text Transact Store Redaction

/-- How a device secret is not loaded. -/
inductive SecretStop where
  | invalidPayload | panic
  deriving DecidableEq, Repr

/-- The file of the secret; `isPrivate` is what its metadata say of its kind, owner and mode. -/
structure SecretFile where
  isPrivate : Bool
  content : List UInt8
  deriving DecidableEq, Repr

def hexEncode (bytes : List UInt8) : Text := encodeHex bytes

/-- `char::to_digit(16)`. -/
def toDigit (c : Char) : Option Nat :=
  if '0' ≤ c ∧ c ≤ '9' then some (c.toNat - '0'.toNat)
  else if 'a' ≤ c ∧ c ≤ 'f' then some (c.toNat - 'a'.toNat + 10)
  else if 'A' ≤ c ∧ c ≤ 'F' then some (c.toNat - 'A'.toNat + 10)
  else none

/-- The digits of an integer of eight bits. -/
def parseDigits (digits : Text) : Option Nat :=
  digits.foldlM (fun value c => do
    let digit ← toDigit c
    if value * 16 + digit < 256 then some (value * 16 + digit) else none) 0

/-- `u8::from_str_radix(_, 16)`. -/
def fromStrRadix : Text → Option Nat
  | [] => none
  | ['+'] => none
  | ['-'] => none
  | '+' :: digits => parseDigits digits
  | digits => parseDigits digits

def decodeSecretLoop (value : Text) : (count index : Nat) → Except SecretStop (List UInt8)
  | 0, _ => .ok []
  | count + 1, index => do
    let pair ← orThrow .panic (slice value (index * 2) (index * 2 + 2))
    let byte ← orThrow .invalidPayload (fromStrRadix pair)
    let rest ← decodeSecretLoop value count (index + 1)
    .ok (UInt8.ofNat byte :: rest)

def decodeSecretHex (value : Text) : Except SecretStop (List UInt8) :=
  if size value ≠ 64 then .error .invalidPayload
  else do
    let secret ← decodeSecretLoop value 32 0
    if secret.all (· == 0) then .error .invalidPayload else .ok secret

/-- `str::trim_end`. -/
def trimEnd (s : Text) : Text := s.rdropWhile isWhitespace

def loadDeviceSecretPath (file : SecretFile) : Except SecretStop (List UInt8) :=
  if !file.isPrivate || file.content.length != 65 then .error .invalidPayload
  else do
    let encoded ← orThrow .invalidPayload (Observer.fromUtf8 file.content)
    let secret ← decodeSecretHex (trimEnd encoded)
    if secret.all (· == 0) then .error .invalidPayload else .ok secret

/-! ### What a secret file says -/

def isHexDigit (c : Char) : Bool := (toDigit c).isSome

/-- The bytes that hexadecimal digits denote. -/
def hexBytes : Text → List UInt8
  | a :: b :: rest => UInt8.ofNat ((toDigit a).getD 0 * 16 + (toDigit b).getD 0) :: hexBytes rest
  | _ => []

/-- A file of 64 digits and one whitespace character that denote a secret. -/
def Written (content : List UInt8) (secret : List UInt8) : Prop :=
  ∃ digits space, content = asBytes (digits ++ [space]) ∧ digits.length = 64 ∧ digits.all isHexDigit = true ∧
    isWhitespace space = true ∧ secret = hexBytes digits ∧ ∃ byte ∈ secret, byte ≠ 0

/-- No panic, nothing loaded but what is written, and what is loaded is the text again. -/
structure FailClosed (content : List UInt8) : Prop where
  returns : loadDeviceSecretPath ⟨true, content⟩ ≠ .error .panic
  exact : ∀ secret, loadDeviceSecretPath ⟨true, content⟩ = .ok secret ↔ Written content secret
  again : ∀ secret, loadDeviceSecretPath ⟨true, content⟩ = .ok secret →
    ∃ digits space, content = asBytes (digits ++ [space]) ∧ hexEncode secret = lowercase digits

/-- A pair the integer parser reads: a digit, or a sign, before a digit. -/
def readsPair (a b : Char) : Bool := (isHexDigit a || a == '+') && isHexDigit b

/-- Behind pairs that are read a pair starts or ends inside a character. -/
def cutsCharacter : Text → Bool
  | [] => false
  | [a] => decide (2 < a.utf8Size)
  | a :: b :: rest =>
    decide (2 < a.utf8Size) ||
      (decide (a.utf8Size = 1) && (decide (1 < b.utf8Size) || (readsPair a b && cutsCharacter rest)))

def readsPairs : Text → Bool
  | [] => true
  | [_] => false
  | a :: b :: rest => readsPair a b && readsPairs rest

/-- Every pair is read, one of them has a sign, and not all digits are zero. -/
def signed (s : Text) : Bool := readsPairs s && s.contains '+' && s.any fun c => c != '0' && c != '+'

/-- The file is a text of 64 bytes and one whitespace character. -/
def Framed (content : List UInt8) (s : Text) : Prop :=
  ∃ space, content = asBytes (s ++ [space]) ∧ isWhitespace space = true ∧
    (∀ c ∈ s.getLast?, isWhitespace c = false) ∧ size s = 64

/-- The text of the file has a pair that cuts a character, or a pair with a sign. -/
def Misread (content : List UInt8) : Prop :=
  ∃ s, Framed content s ∧ (cutsCharacter s = true ∨ signed s = true)

/-! ### Pairs -/

/-- The decoder, a pair at a time. -/
def readPairs : Text → Except SecretStop (List UInt8)
  | [] => .ok []
  | [a] => if a.utf8Size = 2 then .error .invalidPayload else .error .panic
  | a :: b :: rest =>
    if a.utf8Size = 2 then .error .invalidPayload
    else if 2 < a.utf8Size ∨ 1 < b.utf8Size then .error .panic
    else do
      let byte ← orThrow .invalidPayload (fromStrRadix [a, b])
      let bytes ← readPairs rest
      .ok (UInt8.ofNat byte :: bytes)

variable {s rest digits : Text} {a b c : Char}

theorem ascii_of_toDigit {n : Nat} (h : toDigit c = some n) : c.utf8Size = 1 := by
  refine ascii_size ?_
  have hle : ∀ low high : Char, low ≤ c ∧ c ≤ high → high.val ≤ 127 → c.val ≤ 127 := by
    rintro low high ⟨-, hhigh⟩ hascii
    exact UInt32.le_trans hhigh hascii
  rw [toDigit] at h
  split at h
  next hdigit => exact hle _ _ hdigit (by decide)
  split at h
  next hdigit => exact hle _ _ hdigit (by decide)
  split at h
  next hdigit => exact hle _ _ hdigit (by decide)
  cases h

theorem slice_pair {front : Text} {index : Nat} (h : size front = index * 2) (rest : Text) :
    slice (front ++ rest) (index * 2) (index * 2 + 2) = sliceTo rest 2 := by
  rw [slice, if_pos (Nat.le_add_right _ _), ← h, sliceFrom_append, Option.bind_some, Nat.add_sub_cancel_left]

theorem sliceTo_one (h : a.utf8Size = 2) (rest : Text) : sliceTo (a :: rest) 2 = some [a] := by
  have hsize : size [a] = 2 := h
  rw [← hsize]
  exact sliceTo_append [a] rest

theorem sliceTo_two (ha : a.utf8Size = 1) (hb : b.utf8Size = 1) (rest : Text) :
    sliceTo (a :: b :: rest) 2 = some [a, b] := by
  have hsize : size [a, b] = 2 := by simp [ha, hb]
  rw [← hsize]
  exact sliceTo_append [a, b] rest

theorem sliceTo_wide (h : 2 < a.utf8Size) (rest : Text) : sliceTo (a :: rest) 2 = none := by
  have hinside := splitBytes_inside (a := []) (b := rest) (c := a) (n := 2) (by simp) (by simpa using h)
  rw [sliceTo, show a :: rest = [] ++ a :: rest from rfl, hinside]
  rfl

theorem sliceTo_second (ha : a.utf8Size = 1) (hb : 1 < b.utf8Size) (rest : Text) :
    sliceTo (a :: b :: rest) 2 = none := by
  have hinside := splitBytes_inside (a := [a]) (b := rest) (c := b) (n := 2) (by simp [ha])
    (by simp [ha]; omega)
  rw [sliceTo, show a :: b :: rest = [a] ++ b :: rest from rfl, hinside]
  rfl

theorem toDigit_none (h : c.utf8Size ≠ 1) : toDigit c = none := by
  rw [Option.eq_none_iff_forall_not_mem]
  rintro n hn
  exact h (ascii_of_toDigit hn)

theorem toDigit_lt {n : Nat} (h : toDigit c = some n) : n < 16 := by
  rw [toDigit] at h
  split at h
  next hdigit =>
    have hle : c.toNat ≤ '9'.toNat := hdigit.2
    have hval : '9'.toNat = 57 ∧ '0'.toNat = 48 := by decide
    obtain rfl := Option.some.inj h
    omega
  split at h
  next hdigit =>
    have hle : c.toNat ≤ 'f'.toNat := hdigit.2
    have hval : 'f'.toNat = 102 ∧ 'a'.toNat = 97 := by decide
    obtain rfl := Option.some.inj h
    omega
  split at h
  next hdigit =>
    have hle : c.toNat ≤ 'F'.toNat := hdigit.2
    have hval : 'F'.toNat = 70 ∧ 'A'.toNat = 65 := by decide
    obtain rfl := Option.some.inj h
    omega
  cases h

/-- What the integer parser makes of a pair. -/
theorem fromStrRadix_pair (a b : Char) :
    fromStrRadix [a, b] =
      if readsPair a b = true then some ((toDigit a).getD 0 * 16 + (toDigit b).getD 0) else none := by
  have hdigit : ∀ c, isHexDigit c = (toDigit c).isSome := fun _ => rfl
  by_cases hsign : a = '+'
  · rw [hsign]
    show parseDigits [b] = _
    have hplus : toDigit '+' = none := by decide
    cases hb : toDigit b with
    | none => simp [parseDigits, readsPair, hdigit, hb]
    | some n =>
      have hlt := toDigit_lt hb
      simp [parseDigits, readsPair, hdigit, hb, hplus]
      omega
  · have hparsed : fromStrRadix [a, b] = parseDigits [a, b] := by
      rw [fromStrRadix]
      · simp
      · simp
      · simp
      · simpa using hsign
    rw [hparsed]
    cases ha : toDigit a with
    | none => simp [parseDigits, readsPair, hdigit, ha, hsign]
    | some m =>
      have hm := toDigit_lt ha
      cases hb : toDigit b with
      | none =>
        have hlt : m < 256 := by omega
        simp [parseDigits, readsPair, hdigit, ha, hb, hlt]
      | some n =>
        have hn := toDigit_lt hb
        have hlt : m < 256 := by omega
        have hsum : m * 16 + n < 256 := by omega
        simp [parseDigits, readsPair, hdigit, ha, hb, hlt, hsum]

theorem fromStrRadix_single (h : a.utf8Size = 2) : fromStrRadix [a] = none := by
  have hdigit : toDigit a = none := toDigit_none (by omega)
  have hother : ∀ c : Char, c.utf8Size = 1 → a ≠ c := by
    rintro c hc rfl
    omega
  rw [fromStrRadix]
  · simp [parseDigits, hdigit]
  · simp
  · simpa using hother '+' rfl
  · simpa using hother '-' rfl
  · simpa using hother '+' rfl

/-- The loop over byte offsets reads the pairs of what is left. -/
theorem decodeSecretLoop_eq (front rest : Text) (count index : Nat) (hfront : size front = index * 2)
    (hrest : size rest = count * 2) : decodeSecretLoop (front ++ rest) count index = readPairs rest := by
  induction count generalizing front rest index with
  | zero =>
    cases rest with
    | nil => rfl
    | cons a rest =>
      have hpos := a.utf8Size_pos
      rw [size_cons] at hrest
      omega
  | succ count ih =>
    rw [decodeSecretLoop, slice_pair hfront]
    cases rest with
    | nil =>
      rw [size_nil] at hrest
      omega
    | cons a rest =>
      have hpos := a.utf8Size_pos
      rw [size_cons] at hrest
      by_cases htwo : a.utf8Size = 2
      · have hinvalid : readPairs (a :: rest) = .error .invalidPayload := by
          cases rest <;> simp [readPairs, htwo]
        rw [hinvalid, sliceTo_one htwo]
        show (orThrow SecretStop.invalidPayload (fromStrRadix [a]) >>= _) = _
        rw [fromStrRadix_single htwo]
        rfl
      by_cases hwide : 2 < a.utf8Size
      · have hpanic : readPairs (a :: rest) = .error .panic := by
          cases rest <;> simp [readPairs, htwo, hwide]
        rw [hpanic, sliceTo_wide hwide]
        rfl
      cases rest with
      | nil =>
        rw [size_nil] at hrest
        omega
      | cons b rest =>
        have hb := b.utf8Size_pos
        rw [size_cons] at hrest
        by_cases hsecond : 1 < b.utf8Size
        · rw [readPairs, if_neg htwo, if_pos (.inr hsecond), sliceTo_second (by omega) hsecond]
          rfl
        · have hpair := ih (front ++ [a, b]) rest (index + 1) (by simp; omega) (by omega)
          rw [List.append_assoc] at hpair
          rw [readPairs, if_neg htwo, if_neg (by simp [hwide, hsecond]), sliceTo_two (by omega) (by omega)]
          show (orThrow SecretStop.invalidPayload (fromStrRadix [a, b]) >>= fun byte => _) = _
          cases hread : fromStrRadix [a, b] with
          | none => rfl
          | some byte =>
            show (decodeSecretLoop (front ++ a :: b :: rest) count (index + 1) >>= _) = (readPairs rest >>= _)
            rw [← hpair]
            rfl

/-- A pair of single bytes is read, or the decoder stops there. -/
theorem readPairs_pair (ha : a.utf8Size = 1) (hb : b.utf8Size = 1) (rest : Text) :
    readPairs (a :: b :: rest) =
      if readsPair a b = true then
        (readPairs rest).map (UInt8.ofNat ((toDigit a).getD 0 * 16 + (toDigit b).getD 0) :: ·)
      else .error .invalidPayload := by
  rw [readPairs, if_neg (by omega), if_neg (by omega), fromStrRadix_pair]
  split
  · show (readPairs rest >>= _) = _
    cases readPairs rest <;> rfl
  · rfl

theorem readsPair_ascii (h : readsPair a b = true) : a.utf8Size = 1 ∧ b.utf8Size = 1 := by
  have hone : ∀ c, isHexDigit c = true → c.utf8Size = 1 := by
    rintro c hc
    obtain ⟨n, hn⟩ := Option.isSome_iff_exists.1 hc
    exact ascii_of_toDigit hn
  rw [readsPair, Bool.and_eq_true, Bool.or_eq_true] at h
  refine ⟨?_, hone b h.2⟩
  rcases h.1 with hdigit | hsign
  · exact hone a hdigit
  · rw [eq_of_beq hsign]
    rfl

theorem readPairs_panic (s : Text) (h : size s % 2 = 0) :
    readPairs s = .error .panic ↔ cutsCharacter s = true := by
  induction s using readPairs.induct with
  | case1 => simp [readPairs, cutsCharacter]
  | case2 a htwo => simp [readPairs, cutsCharacter, htwo]
  | case3 a htwo =>
    have hsize : a.utf8Size % 2 = 0 := by simpa using h
    have hpos := a.utf8Size_pos
    simp [readPairs, cutsCharacter, htwo]
    omega
  | case4 a b rest htwo => simp [readPairs, cutsCharacter, htwo]
  | case5 a b rest htwo hwide =>
    have hpos := a.utf8Size_pos
    simp [readPairs, cutsCharacter, htwo, hwide]
    omega
  | case6 a b rest htwo hnarrow ih =>
    have ha := a.utf8Size_pos
    have hb := b.utf8Size_pos
    have hsize : size rest % 2 = 0 := by
      rw [size_cons, size_cons] at h
      omega
    have hcuts : cutsCharacter (a :: b :: rest) = (readsPair a b && cutsCharacter rest) := by
      simp [cutsCharacter, show a.utf8Size = 1 by omega, show b.utf8Size = 1 by omega]
    rw [readPairs_pair (by omega) (by omega), hcuts]
    by_cases hread : readsPair a b = true
    · rw [if_pos hread, hread, Bool.true_and, ← ih hsize]
      cases readPairs rest <;> simp [Except.map]
    · simp [hread]

theorem readPairs_ok (s : Text) (bytes : List UInt8) :
    readPairs s = .ok bytes ↔ readsPairs s = true ∧ bytes = hexBytes s := by
  induction s using readPairs.induct generalizing bytes with
  | case1 => simp [readPairs, readsPairs, hexBytes, eq_comm]
  | case2 a htwo => simp [readPairs, readsPairs, htwo]
  | case3 a htwo => simp [readPairs, readsPairs, htwo]
  | case4 a b rest htwo =>
    have hunread : readsPair a b = false :=
      Bool.eq_false_iff.2 fun hread => absurd (readsPair_ascii hread).1 (by omega)
    simp [readPairs, readsPairs, htwo, hunread]
  | case5 a b rest htwo hwide =>
    have hunread : readsPair a b = false := by
      refine Bool.eq_false_iff.2 fun hread => ?_
      have hascii := readsPair_ascii hread
      omega
    simp [readPairs, readsPairs, htwo, hwide, hunread]
  | case6 a b rest htwo hnarrow ih =>
    have ha := a.utf8Size_pos
    have hb := b.utf8Size_pos
    rw [readPairs_pair (by omega) (by omega), readsPairs]
    by_cases hread : readsPair a b = true
    · rw [if_pos hread, hread, Bool.true_and, hexBytes]
      cases hrest : readPairs rest with
      | error e =>
        have hnone : ¬ readsPairs rest = true := fun hall => by
          have hok := (ih (hexBytes rest)).2 ⟨hall, rfl⟩
          exact absurd (hrest.symm.trans hok) (by simp)
        simp [Except.map, hnone]
      | ok bytes' =>
        obtain ⟨hall, rfl⟩ := (ih bytes').1 hrest
        simp [Except.map, hall, eq_comm]
    · simp [hread]

/-! ### What is loaded -/

theorem asBytes_fromUtf8 {content : List UInt8} (h : Observer.fromUtf8 content = some s) :
    content = asBytes s := by
  have hvalid : content.toByteArray.IsValidUTF8 := by
    rw [← ByteArray.isSome_utf8Decode?_iff]
    rw [Observer.fromUtf8] at h
    cases hdecode : content.toByteArray.utf8Decode? with
    | none =>
      rw [hdecode] at h
      cases h
    | some chars => rfl
  obtain ⟨m, hm⟩ := hvalid
  have hbytes : content = asBytes m := by
    have hlist := congrArg (fun bytes : ByteArray => bytes.data.toList) hm
    simpa [asBytes, List.utf8Encode] using hlist
  rw [hbytes, Observer.fromUtf8_asBytes] at h
  rw [hbytes, Option.some.inj h]

/-- The text in front of its last white space. -/
theorem trimEnd_append {space : Char} (hspace : isWhitespace space = true)
    (hlast : ∀ c ∈ s.getLast?, isWhitespace c = false) : trimEnd (s ++ [space]) = s := by
  rw [trimEnd, List.rdropWhile_concat_pos _ _ _ hspace, List.rdropWhile_eq_self_iff]
  rintro hne
  rw [hlast _ (List.getLast?_eq_some_getLast hne)]
  decide

theorem trimEnd_last (s : Text) : ∀ c ∈ (trimEnd s).getLast?, isWhitespace c = false := by
  rintro c hc
  by_cases hempty : trimEnd s = []
  · rw [hempty] at hc
    cases hc
  · rw [List.getLast?_eq_some_getLast hempty] at hc
    obtain rfl := Option.some.inj hc
    exact Bool.eq_false_iff.2 (List.rdropWhile_last_not _ _ hempty)

theorem Framed.unique {content : List UInt8} (h : Framed content s) (hrest : Framed content rest) : s = rest := by
  obtain ⟨space, hcontent, -, -, -⟩ := h
  obtain ⟨other, hother, -, -, -⟩ := hrest
  have hsame := asBytes_inj (hcontent.symm.trans hother)
  exact (List.append_inj' hsame rfl).1

/-- A text of one byte is one character. -/
theorem single_of_size (h : size s = 1) : ∃ c, s = [c] := by
  cases s with
  | nil => cases h
  | cons c rest =>
    have hpos := c.utf8Size_pos
    cases rest with
    | nil => exact ⟨c, rfl⟩
    | cons d rest =>
      have hsecond := d.utf8Size_pos
      rw [size_cons, size_cons] at h
      omega

/-- What a private file of 65 bytes gives: nothing unless it is framed, and then what its pairs say. -/
theorem load_cases (content : List UInt8) (h : content.length = 65) :
    ((∀ s, ¬ Framed content s) ∧ loadDeviceSecretPath ⟨true, content⟩ = .error .invalidPayload) ∨
      ∃ s, Framed content s ∧ loadDeviceSecretPath ⟨true, content⟩ = (readPairs s >>= fun secret =>
        if secret.all (· == 0) then .error .invalidPayload else .ok secret) := by
  have hload : loadDeviceSecretPath ⟨true, content⟩ = (orThrow SecretStop.invalidPayload (Observer.fromUtf8 content) >>=
      fun encoded => decodeSecretHex (trimEnd encoded) >>= fun secret =>
        if secret.all (· == 0) then .error .invalidPayload else .ok secret) := by
    rw [loadDeviceSecretPath]
    simp [h]
  rw [hload]
  cases hread : Observer.fromUtf8 content with
  | none =>
    refine .inl ⟨?_, rfl⟩
    rintro s ⟨space, rfl, -⟩
    exact absurd (hread.symm.trans (Observer.fromUtf8_asBytes _)) (by simp)
  | some text =>
    have hcontent := asBytes_fromUtf8 hread
    show (_ ∧ (decodeSecretHex (trimEnd text) >>= _) = _) ∨ ∃ s, _ ∧ (decodeSecretHex (trimEnd text) >>= _) = _
    have hframed : ∀ s, Framed content s → trimEnd text = s ∧ size s = 64 := by
      rintro s ⟨space, hsame, hspace, hlast, hsize⟩
      rw [asBytes_inj (hcontent.symm.trans hsame), trimEnd_append hspace hlast]
      exact ⟨rfl, hsize⟩
    by_cases hsize : size (trimEnd text) = 64
    · refine .inr ⟨trimEnd text, ?_, ?_⟩
      · obtain ⟨spaces, hspaces, hall⟩ : ∃ spaces, text = trimEnd text ++ spaces ∧
            ∀ c ∈ spaces, isWhitespace c = true := by
          exact ⟨text.rtakeWhile isWhitespace, List.rdropWhile_append_rtakeWhile.symm,
            fun c hc => List.mem_rtakeWhile_imp hc⟩
        have hone : size spaces = 1 := by
          have htotal := length_asBytes text
          rw [← hcontent, h, hspaces, size_append, hsize] at htotal
          omega
        obtain ⟨space, rfl⟩ := single_of_size hone
        exact ⟨space, by rw [← hspaces]; exact hcontent, hall space List.mem_cons_self, trimEnd_last text, hsize⟩
      · rw [decodeSecretHex, if_neg (by rw [hsize]; decide)]
        have hloop := decodeSecretLoop_eq [] (trimEnd text) 32 0 rfl hsize
        rw [List.nil_append] at hloop
        rw [hloop]
        cases readPairs (trimEnd text) with
        | error e => rfl
        | ok secret =>
          show ((if secret.all (· == 0) then _ else _) >>= _) = if secret.all (· == 0) then _ else _
          cases hzero : secret.all (· == 0) with
          | true => rfl
          | false =>
            show (if secret.all (· == 0) then _ else _) = _
            rw [hzero]
    · refine .inl ⟨fun s hs => ?_, ?_⟩
      · obtain ⟨rfl, hright⟩ := hframed s hs
        exact hsize hright
      · rw [decodeSecretHex, if_pos hsize]
        rfl

/-! ### Digits and signs -/

/-- What holds of the ASCII digits holds of every digit. -/
theorem forall_hexDigit {P : Char → Prop} (h : ∀ n < 128, isHexDigit (Char.ofNat n) = true → P (Char.ofNat n))
    (hc : isHexDigit c = true) : P c := by
  obtain ⟨n, hn⟩ := Option.isSome_iff_exists.1 hc
  have hascii := Char.utf8Size_eq_one_iff.1 (ascii_of_toDigit hn)
  have hle : c.toNat ≤ 127 := hascii
  have hself := Char.ofNat_toNat c
  rw [← hself] at hc ⊢
  exact h c.toNat (by omega) hc

theorem hexDigit_plain (h : isHexDigit c = true) : isWhitespace c = false ∧ c ≠ '+' ∧ c.utf8Size = 1 ∧
    hexChar ((toDigit c).getD 0) = c.toLower ∧ ((toDigit c).getD 0 = 0 ↔ c = '0') := by
  refine forall_hexDigit (P := fun c => isWhitespace c = false ∧ c ≠ '+' ∧ c.utf8Size = 1 ∧
    hexChar ((toDigit c).getD 0) = c.toLower ∧ ((toDigit c).getD 0 = 0 ↔ c = '0')) ?_ h
  decide

theorem toDigit_getD_lt (c : Char) : (toDigit c).getD 0 < 16 := by
  cases h : toDigit c with
  | none => decide
  | some n => exact toDigit_lt h

theorem toNat_pair (a b : Char) :
    (UInt8.ofNat ((toDigit a).getD 0 * 16 + (toDigit b).getD 0)).toNat =
      (toDigit a).getD 0 * 16 + (toDigit b).getD 0 := by
  have ha := toDigit_getD_lt a
  have hb := toDigit_getD_lt b
  rw [UInt8.toNat_ofNat']
  omega

/-- Digits are pairs that are read, and pairs without a sign are digits. -/
theorem readsPairs_digits (s : Text) (hplus : '+' ∉ s) :
    readsPairs s = true ↔ s.length % 2 = 0 ∧ s.all isHexDigit = true := by
  induction s using hexBytes.induct with
  | case1 a b rest ih =>
    have ha : (a == '+') = false := by
      refine Bool.eq_false_iff.2 fun heq => hplus ?_
      rw [← eq_of_beq heq]
      exact List.mem_cons_self
    have hrest := ih fun hmem => hplus (List.mem_cons_of_mem _ (List.mem_cons_of_mem _ hmem))
    rw [readsPairs, readsPair, ha, Bool.or_false, Bool.and_eq_true, hrest]
    simp [List.length_cons, and_assoc, and_left_comm]
    omega
  | case2 s hshort =>
    cases s with
    | nil => simp [readsPairs]
    | cons a rest =>
      cases rest with
      | nil => simp [readsPairs]
      | cons b rest => exact absurd rfl (hshort a b rest)

theorem digits_plus (h : s.all isHexDigit = true) : '+' ∉ s := by
  rintro hmem
  exact absurd (List.all_eq_true.1 h _ hmem) (by decide)

theorem digits_size (h : s.all isHexDigit = true) : size s = s.length := by
  induction s with
  | nil => rfl
  | cons c rest ih =>
    rw [List.all_cons, Bool.and_eq_true] at h
    rw [size_cons, ih h.2, (hexDigit_plain h.1).2.2.1, List.length_cons]
    omega

/-- The bytes of pairs are zero when no digit but the zero stands in them. -/
theorem hexBytes_zero (s : Text) (h : readsPairs s = true) :
    (hexBytes s).all (· == 0) = !s.any fun c => c != '0' && c != '+' := by
  have hdigit : ∀ c, (isHexDigit c || c == '+') = true →
      ((toDigit c).getD 0 = 0 ↔ (c != '0' && c != '+') = false) := by
    rintro c hc
    rw [Bool.or_eq_true] at hc
    rcases hc with hc | hc
    · obtain ⟨-, hplus, -, -, hzero⟩ := hexDigit_plain hc
      rw [hzero]
      simp [hplus]
    · rw [eq_of_beq hc]
      decide
  induction s using hexBytes.induct with
  | case1 a b rest ih =>
    rw [readsPairs, readsPair, Bool.and_eq_true, Bool.and_eq_true] at h
    have ha := hdigit a h.1.1
    have hb := hdigit b (by rw [h.1.2, Bool.true_or])
    have hbyte : (UInt8.ofNat ((toDigit a).getD 0 * 16 + (toDigit b).getD 0) == 0) =
        !((a != '0' && a != '+') || (b != '0' && b != '+')) := by
      rw [Bool.eq_iff_iff, beq_iff_eq, ← UInt8.toNat_inj, toNat_pair, Bool.not_eq_true', Bool.or_eq_false_iff,
        ← ha, ← hb]
      show _ * 16 + _ = 0 ↔ _
      omega
    rw [hexBytes, List.all_cons, hbyte, ih h.2, List.any_cons, List.any_cons]
    simp [Bool.and_assoc]
  | case2 s hshort =>
    cases s with
    | nil => rfl
    | cons a rest =>
      cases rest with
      | nil => cases h
      | cons b rest => exact absurd rfl (hshort a b rest)

theorem hexEncode_hexBytes (s : Text) (heven : s.length % 2 = 0) (h : s.all isHexDigit = true) :
    hexEncode (hexBytes s) = lowercase s := by
  induction s using hexBytes.induct with
  | case1 a b rest ih =>
    rw [List.all_cons, List.all_cons, Bool.and_eq_true, Bool.and_eq_true] at h
    have hrest := ih (by simp only [List.length_cons] at heven; omega) h.2.2
    have ha := toDigit_getD_lt a
    have hb := toDigit_getD_lt b
    have hhigh : ((toDigit a).getD 0 * 16 + (toDigit b).getD 0) / 16 = (toDigit a).getD 0 := by omega
    have hlow : ((toDigit a).getD 0 * 16 + (toDigit b).getD 0) % 16 = (toDigit b).getD 0 := by omega
    show hexChar (UInt8.toNat _ / 16) :: hexChar (UInt8.toNat _ % 16) :: hexEncode (hexBytes rest) =
      a.toLower :: b.toLower :: lowercase rest
    rw [toNat_pair, hhigh, hlow, (hexDigit_plain h.1).2.2.2.1, (hexDigit_plain h.2.1).2.2.2.1, hrest]
  | case2 s hshort =>
    cases s with
    | nil => rfl
    | cons a rest =>
      cases rest with
      | nil => cases heven
      | cons b rest => exact absurd rfl (hshort a b rest)

/-! ### The secret -/

theorem digits_framed {space : Char} (hlength : s.length = 64) (h : s.all isHexDigit = true)
    (hspace : isWhitespace space = true) : Framed (asBytes (s ++ [space])) s := by
  refine ⟨space, rfl, hspace, ?_, by rw [digits_size h, hlength]⟩
  rintro c hc
  exact (hexDigit_plain (List.all_eq_true.1 h c (List.mem_of_getLast? hc))).1

/-- What is written is framed, and its pairs say the secret. -/
theorem Written.framed {content secret : List UInt8} (h : Written content secret) :
    ∃ s, Framed content s ∧ readPairs s = .ok secret ∧ secret.all (· == 0) = false ∧ '+' ∉ s := by
  obtain ⟨digits, space, rfl, hlength, hdigits, hspace, rfl, byte, hmem, hne⟩ := h
  refine ⟨digits, digits_framed hlength hdigits hspace, ?_, ?_, digits_plus hdigits⟩
  · have hpairs := (readsPairs_digits digits (digits_plus hdigits)).2 ⟨by rw [hlength], hdigits⟩
    exact (readPairs_ok digits _).2 ⟨hpairs, rfl⟩
  · exact Bool.eq_false_iff.2 fun hall => hne (eq_of_beq (List.all_eq_true.1 hall byte hmem))

theorem Framed.written {content : List UInt8} (h : Framed content s) (hpairs : readsPairs s = true)
    (hplus : '+' ∉ s) (hzero : (hexBytes s).all (· == 0) = false) : Written content (hexBytes s) := by
  obtain ⟨space, rfl, hspace, -, hsize⟩ := h
  have hdigits := ((readsPairs_digits s hplus).1 hpairs).2
  obtain ⟨byte, hmem, hne⟩ := List.all_eq_false.1 hzero
  exact ⟨s, space, rfl, by rw [← digits_size hdigits, hsize], hdigits, hspace, rfl, byte, hmem,
    by simpa using hne⟩

/-- A framed file is read as it is written exactly when its text is not misread. -/
theorem Framed.failClosed_iff {content : List UInt8} (h : Framed content s)
    (hread : loadDeviceSecretPath ⟨true, content⟩ =
    (readPairs s >>= fun secret => if secret.all (· == 0) then .error .invalidPayload else .ok secret)) :
    FailClosed content ↔ ¬ (cutsCharacter s = true ∨ signed s = true) := by
  obtain ⟨space, hcontent, hspace, hlast, hsize⟩ := h
  have hpanic := readPairs_panic s (by rw [hsize])
  have hwritten : ∀ secret, Written content secret →
      readPairs s = .ok secret ∧ secret.all (· == 0) = false ∧ '+' ∉ s := by
    rintro secret hw
    obtain ⟨digits, hframed, hok⟩ := hw.framed
    obtain rfl := hframed.unique ⟨space, hcontent, hspace, hlast, hsize⟩
    exact hok
  have hvalid : ∀ secret, secret.all (· == 0) = false → readPairs s = .ok secret →
      loadDeviceSecretPath ⟨true, content⟩ = .ok secret := by
    rintro secret hzero hok
    rw [hread, hok]
    show (if secret.all (· == 0) then _ else _) = _
    rw [hzero]
    rfl
  constructor
  · rintro hclosed (hcuts | hsigned)
    · refine hclosed.returns ?_
      rw [hread, hpanic.2 hcuts]
      rfl
    · rw [signed, Bool.and_eq_true, Bool.and_eq_true] at hsigned
      have hzero : (hexBytes s).all (· == 0) = false := by
        rw [hexBytes_zero s hsigned.1.1, hsigned.2]
        rfl
      have hloaded := hvalid _ hzero ((readPairs_ok s _).2 ⟨hsigned.1.1, rfl⟩)
      obtain ⟨-, -, hplus⟩ := hwritten _ ((hclosed.exact _).1 hloaded)
      exact hplus (List.contains_iff_mem.1 hsigned.1.2)
  · rintro hspared
    have hcuts : readPairs s ≠ .error .panic := fun hp => hspared (.inl (hpanic.1 hp))
    have hloaded : ∀ secret, loadDeviceSecretPath ⟨true, content⟩ = .ok secret →
        readPairs s = .ok secret ∧ secret.all (· == 0) = false := by
      rintro secret hload
      rw [hread] at hload
      cases hpairs : readPairs s with
      | error e =>
        rw [hpairs] at hload
        cases hload
      | ok bytes =>
        rw [hpairs] at hload
        replace hload : (if bytes.all (· == 0) then .error .invalidPayload else .ok bytes :
          Except SecretStop (List UInt8)) = .ok secret := hload
        cases hzero : bytes.all (· == 0) with
        | true =>
          rw [hzero] at hload
          cases hload
        | false =>
          rw [hzero] at hload
          cases hload
          exact ⟨rfl, hzero⟩
    have hexact : ∀ secret, loadDeviceSecretPath ⟨true, content⟩ = .ok secret ↔ Written content secret := by
      rintro secret
      constructor
      · rintro hload
        obtain ⟨hok, hzero⟩ := hloaded secret hload
        obtain ⟨hpairs, rfl⟩ := (readPairs_ok s secret).1 hok
        have hplus : '+' ∉ s := by
          rintro hmem
          refine hspared (.inr ?_)
          rw [hexBytes_zero s hpairs] at hzero
          rw [signed, hpairs, List.contains_iff_mem.2 hmem]
          simpa using hzero
        exact Framed.written ⟨space, hcontent, hspace, hlast, hsize⟩ hpairs hplus hzero
      · rintro hw
        obtain ⟨hok, hzero, -⟩ := hwritten secret hw
        exact hvalid secret hzero hok
    refine ⟨?_, hexact, ?_⟩
    · rintro hload
      cases hpairs : readPairs s with
      | error e =>
        rw [hread, hpairs] at hload
        cases hload
        exact hcuts hpairs
      | ok bytes =>
        rw [hread, hpairs] at hload
        replace hload : (if bytes.all (· == 0) then .error .invalidPayload else .ok bytes :
          Except SecretStop (List UInt8)) = .error .panic := hload
        split at hload <;> cases hload
    · rintro secret hload
      obtain ⟨digits, other, hsame, hlength, hdigits, -, rfl, -⟩ := (hexact secret).1 hload
      exact ⟨digits, other, hsame, hexEncode_hexBytes digits (by rw [hlength]) hdigits⟩

theorem hexEncode_read (bytes : List UInt8) :
    (hexEncode bytes).all isHexDigit = true ∧ hexBytes (hexEncode bytes) = bytes := by
  have hdigit : ∀ n < 16, isHexDigit (hexChar n) = true ∧ (toDigit (hexChar n)).getD 0 = n := by decide
  induction bytes with
  | nil => exact ⟨rfl, rfl⟩
  | cons byte bytes ih =>
    have hlt := byte.toNat_lt
    have hhigh := hdigit (byte.toNat / 16) (by omega)
    have hlow := hdigit (byte.toNat % 16) (by omega)
    have hcons : hexEncode (byte :: bytes) =
        hexChar (byte.toNat / 16) :: hexChar (byte.toNat % 16) :: hexEncode bytes := rfl
    rw [hcons]
    refine ⟨by simp [hhigh.1, hlow.1, ih.1], ?_⟩
    rw [hexBytes, hhigh.2, hlow.2, Nat.div_add_mod', UInt8.ofNat_toNat, ih.2]

/-- The file that was written for a secret gives it back. -/
theorem load_written (secret : List UInt8) (hlength : secret.length = 32) (hzero : secret.all (· == 0) = false) :
    loadDeviceSecretPath ⟨true, asBytes (hexEncode secret ++ ['\n'])⟩ = .ok secret := by
  obtain ⟨hdigits, hbytes⟩ := hexEncode_read secret
  have hencoded : (hexEncode secret).length = 64 := by
    rw [hexEncode, encodeHex_length, hlength]
  have hframed := @digits_framed _ '\n' hencoded hdigits (by decide)
  have hsize : (asBytes (hexEncode secret ++ ['\n'])).length = 65 := by
    rw [length_asBytes, size_append, digits_size hdigits, hencoded]
    rfl
  rcases load_cases _ hsize with ⟨hnone, -⟩ | ⟨s, hs, hload⟩
  · exact absurd hframed (hnone _)
  · obtain rfl := hframed.unique hs
    have hpairs := (readsPairs_digits _ (digits_plus hdigits)).2 ⟨by rw [hencoded], hdigits⟩
    rw [hload, (readPairs_ok _ secret).2 ⟨hpairs, hbytes.symm⟩]
    show (if secret.all (· == 0) then _ else _) = _
    rw [hzero]
    rfl

/-- A file is read fail-closed exactly when it is not misread, and a written secret reads back. -/
theorem device_secret_fail_closed (content : List UInt8) (h : content.length = 65) :
    (FailClosed content ↔ ¬ Misread content) ∧
      ∀ secret : List UInt8, secret.length = 32 → secret.all (· == 0) = false →
        loadDeviceSecretPath ⟨true, asBytes (hexEncode secret ++ ['\n'])⟩ = .ok secret := by
  refine ⟨?_, load_written⟩
  rcases load_cases content h with ⟨hnone, hload⟩ | ⟨s, hframed, hload⟩
  · have hspared : ¬ Misread content := by
      rintro ⟨s, hs, -⟩
      exact hnone s hs
    refine iff_of_true ⟨?_, ?_, ?_⟩ hspared
    · simp [hload]
    · rintro secret
      refine iff_of_false (by simp [hload]) fun hw => ?_
      obtain ⟨s, hs, -⟩ := hw.framed
      exact hnone s hs
    · rintro secret hok
      exact absurd (hload.symm.trans hok) (by simp)
  · rw [hframed.failClosed_iff hload]
    refine not_congr ⟨fun hmis => ⟨s, hframed, hmis⟩, ?_⟩
    rintro ⟨other, hother, hmis⟩
    rwa [hframed.unique hother]

theorem device_secret_fail_closed_sevens :
    (FailClosed (asBytes (hexEncode (List.replicate 32 7) ++ ['\n'])) ↔
        ¬ Misread (asBytes (hexEncode (List.replicate 32 7) ++ ['\n']))) ∧
      ∀ secret : List UInt8, secret.length = 32 → secret.all (· == 0) = false →
        loadDeviceSecretPath ⟨true, asBytes (hexEncode secret ++ ['\n'])⟩ = .ok secret :=
  device_secret_fail_closed _ (by decide)

/-- A letter of two bytes at an odd offset. -/
def cutText : Text := 'a' :: 'é' :: List.replicate 61 '0'

theorem device_secret_panics : ¬ ∀ content : List UInt8, content.length = 65 → FailClosed content := by
  rintro hall
  have hframed : Framed (asBytes (cutText ++ ['\n'])) cutText :=
    ⟨'\n', rfl, by decide, fun c hc => by
      have hlast : cutText.getLast? = some '0' := by decide
      rw [hlast] at hc
      cases hc
      decide, by decide⟩
  have hlength : (asBytes (cutText ++ ['\n'])).length = 65 := by
    rw [length_asBytes]
    decide
  rcases load_cases _ hlength with ⟨hnone, -⟩ | ⟨s, hs, hload⟩
  · exact hnone _ hframed
  · obtain rfl := hframed.unique hs
    exact (hframed.failClosed_iff hload).1 (hall _ hlength) (.inl (by decide))

end CodexKeyboard.Provisioning
