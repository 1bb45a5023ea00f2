import CodexKeyboard.Schemes.JsonText

/-! The writer of `config_status.cpp`: strings escaped as they are or up to a bound, and the fields of an object. -/

namespace CodexKeyboard.Status

open Schemes
open Schemes.JsonText (Bytes)

def quote : UInt8 := 34
def backslash : UInt8 := 92
def comma : UInt8 := 44
def colon : UInt8 := 58
def openBrace : UInt8 := 123
def closeBrace : UInt8 := 125
def minus : UInt8 := 45

def kStatusStringMaxLen : Nat := 48
def kCompactStatusStringMaxLen : Nat := 12
def kFirmwareStringMaxLen : Nat := 40
def kAudioCaptureStringMaxLen : Nat := 24

/-- The bytes of a literal. -/
def lit (s : String) : Bytes := Text.asBytes s.toList

/-! ### Numbers -/

def digitByte (c : Char) : UInt8 := UInt8.ofNat c.toNat

/-- `<<` of an unsigned number. -/
def decimal (n : Nat) : Bytes := (Nat.toDigits 10 n).map digitByte

/-- `<<` of an `int`. -/
def signedDecimal (i : Int) : Bytes := if i < 0 then minus :: decimal i.natAbs else decimal i.natAbs

/-- A digit of `std::hex << std::uppercase`. -/
def upperHexDigit (n : Nat) : UInt8 := if n < 10 then UInt8.ofNat (48 + n) else UInt8.ofNat (55 + n)

/-- A byte with `std::setw(4) << std::setfill('0')`. -/
def hexByte4 (byte : UInt8) : Bytes := [48, 48, upperHexDigit (byte.toNat / 16), upperHexDigit (byte.toNat % 16)]

/-! ### Strings -/

/-- The switch of both escapers. -/
def escapeByte (ch : UInt8) : Bytes :=
  if ch = quote then [backslash, quote]
  else if ch = backslash then [backslash, backslash]
  else if ch = 8 then [backslash, 98]
  else if ch = 12 then [backslash, 102]
  else if ch = 10 then [backslash, 110]
  else if ch = 13 then [backslash, 114]
  else if ch = 9 then [backslash, 116]
  else if ch < 0x20 then backslash :: 117 :: hexByte4 ch
  else [ch]

def escapeJsonString (value : Bytes) : Bytes := value.flatMap escapeByte

def clippedStatusString (value : Bytes) (maxLen : Nat) : Bytes :=
  if value.length ≤ maxLen then value else value.take maxLen

/-- The length of the sequence that a byte starts, 0 when it starts none. -/
def sequenceLen (byte : UInt8) : Nat :=
  if 0xC2 ≤ byte ∧ byte ≤ 0xDF then 2
  else if 0xE0 ≤ byte ∧ byte ≤ 0xEF then 3
  else if 0xF0 ≤ byte ∧ byte ≤ 0xF4 then 4
  else 0

def isContinuation (byte : UInt8) : Bool := byte &&& 0xC0 == 0x80

/-- The second bytes that a first byte excludes: overlong forms, surrogates and what is behind the last character. -/
def secondExcluded (byte second : UInt8) : Bool :=
  (byte == 0xE0 && second < 0xA0) || (byte == 0xED && second > 0x9F) ||
    (byte == 0xF0 && second < 0x90) || (byte == 0xF4 && second > 0x8F)

/-- A sequence that is there, whole. -/
def validSequence (byte : UInt8) (rest : Bytes) : Bool :=
  sequenceLen byte != 0 && decide (sequenceLen byte ≤ rest.length + 1) &&
    (rest.take (sequenceLen byte - 1)).all isContinuation && !secondExcluded byte (rest.headD 0)

def replacement : Bytes := backslash :: 117 :: [70, 70, 70, 68]

/-- What is written for the next byte, and how many bytes it takes besides it. -/
def nextToken (byte : UInt8) (rest : Bytes) : Bytes × Nat :=
  if byte ≤ 0x7F then (escapeByte byte, 0)
  else if validSequence byte rest then (byte :: rest.take (sequenceLen byte - 1), sequenceLen byte - 1)
  else (replacement, 0)

/-- The loop, over the bytes that are left; `skip` of them are in the last token. -/
def escapeBoundedLoop (maxEncodedLen : Nat) : (skip : Nat) → (value escaped : Bytes) → Bytes
  | _, [], escaped => escaped
  | skip + 1, _ :: rest, escaped => escapeBoundedLoop maxEncodedLen skip rest escaped
  | 0, byte :: rest, escaped =>
    let (token, consumed) := nextToken byte rest
    if maxEncodedLen < escaped.length + token.length then escaped
    else escapeBoundedLoop maxEncodedLen consumed rest (escaped ++ token)

def escapeJsonStringBounded (value : Bytes) (maxEncodedLen : Nat) : Bytes :=
  escapeBoundedLoop maxEncodedLen 0 value []

theorem escapeBoundedLoop_length {maxEncodedLen : Nat} (skip : Nat) (value escaped : Bytes)
    (h : escaped.length ≤ maxEncodedLen) :
    (escapeBoundedLoop maxEncodedLen skip value escaped).length ≤ maxEncodedLen := by
  induction value generalizing skip escaped with
  | nil =>
    rw [escapeBoundedLoop]
    exact h
  | cons byte rest ih =>
    cases skip with
    | succ skip =>
      rw [escapeBoundedLoop]
      exact ih skip escaped h
    | zero =>
      rw [escapeBoundedLoop]
      dsimp only
      split
      next => exact h
      next hfits =>
        refine ih _ _ ?_
        rw [List.length_append]
        exact Nat.le_of_not_lt hfits

theorem escapeJsonStringBounded_length (value : Bytes) (maxEncodedLen : Nat) :
    (escapeJsonStringBounded value maxEncodedLen).length ≤ maxEncodedLen :=
  escapeBoundedLoop_length 0 value [] (Nat.zero_le _)

/-! ### Fields -/

/-- The text of an object that is being written, and its flag `first`. -/
structure Out where
  text : Bytes
  first : Bool

def Out.put (bytes : Bytes) (out : Out) : Out := { out with text := out.text ++ bytes }

def appendObjectSeparator (out : Out) : Out :=
  if out.first then { out with first := false } else out.put [comma]

def quoted (bytes : Bytes) : Bytes := quote :: (bytes ++ [quote])

/-- A name and the text of its value. -/
def memberText (name : String) (value : Bytes) : Bytes := quoted (lit name) ++ colon :: value

def appendMember (name : String) (value : Bytes) (out : Out) : Out :=
  (appendObjectSeparator out).put (memberText name value)

def boolText (value : Bool) : Bytes := if value then lit "true" else lit "false"

def appendStringField (name : String) (value : Bytes) (maxLen : Nat) (out : Out) : Out :=
  if value = [] then out
  else appendMember name (quoted (escapeJsonString (clippedStatusString value maxLen))) out

/-- The string that is written, unless it is empty and there is no fallback. -/
def selected (value : Bytes) (fallback : Option String) : Bytes :=
  if value = [] then (fallback.map lit).getD value else value

def appendBoundedStringField (name : String) (value : Bytes) (maxEncodedLen : Nat) (fallback : Option String)
    (out : Out) : Out :=
  if selected value fallback = [] ∧ fallback = none then out
  else appendMember name (quoted (escapeJsonStringBounded (selected value fallback) maxEncodedLen)) out

def appendBoolField (name : String) (value : Bool) (out : Out) : Out := appendMember name (boolText value) out

/-- The value is taken as a `std::uint32_t`. -/
def appendUintField (name : String) (value : Nat) (out : Out) : Out :=
  appendMember name (decimal (value % 2 ^ 32)) out

def appendUint64Field (name : String) (value : UInt64) (out : Out) : Out :=
  appendMember name (decimal value.toNat) out

def appendIntField (name : String) (value : Int32) (out : Out) : Out :=
  appendMember name (signedDecimal value.toInt) out

/-- An object of its own between braces, with a flag of its own. -/
def appendObject (name : String) (fields : Out → Out) (out : Out) : Out :=
  appendMember name (openBrace :: ((fields ⟨[], true⟩).text ++ [closeBrace])) out

/-! ### Members -/

/-- The members of an object between its braces. -/
def joined : List (String × Bytes) → Bytes
  | [] => []
  | (name, value) :: members =>
    memberText name value ++ members.flatMap fun member => comma :: memberText member.1 member.2

def objectText (members : List (String × Bytes)) : Bytes := openBrace :: (joined members ++ [closeBrace])

def written (members : List (String × Bytes)) (out : Out) : Out :=
  members.foldl (fun out member => appendMember member.1 member.2 out) out

theorem written_append (members later : List (String × Bytes)) (out : Out) :
    written (members ++ later) out = written later (written members out) :=
  List.foldl_append

theorem written_behind (members : List (String × Bytes)) (text : Bytes) :
    written members ⟨text, false⟩ =
      ⟨text ++ members.flatMap fun member => comma :: memberText member.1 member.2, false⟩ := by
  induction members generalizing text with
  | nil =>
    rw [List.flatMap_nil, List.append_nil]
    rfl
  | cons member members ih =>
    have hfirst : appendMember member.1 member.2 ⟨text, false⟩ =
        ⟨text ++ [comma] ++ memberText member.1 member.2, false⟩ := rfl
    rw [written, List.foldl_cons, hfirst, ← written, ih, List.flatMap_cons, List.append_assoc, List.append_assoc,
      List.singleton_append]
    rfl

theorem written_text (members : List (String × Bytes)) : (written members ⟨[], true⟩).text = joined members := by
  cases members with
  | nil => rfl
  | cons member members =>
    have hfirst : appendMember member.1 member.2 ⟨[], true⟩ = ⟨memberText member.1 member.2, false⟩ := rfl
    rw [written, List.foldl_cons, hfirst, ← written, written_behind]
    rfl

/-! ### What a field adds -/

def stringMember (name : String) (value : Bytes) (maxLen : Nat) : List (String × Bytes) :=
  if value = [] then [] else [(name, quoted (escapeJsonString (clippedStatusString value maxLen)))]

def boundedMember (name : String) (value : Bytes) (maxEncodedLen : Nat) (fallback : Option String) :
    List (String × Bytes) :=
  if selected value fallback = [] ∧ fallback = none then []
  else [(name, quoted (escapeJsonStringBounded (selected value fallback) maxEncodedLen))]

theorem appendMember_written (name : String) (value : Bytes) : appendMember name value = written [(name, value)] := rfl

theorem appendBoolField_written (name : String) (value : Bool) :
    appendBoolField name value = written [(name, boolText value)] := rfl

theorem appendUintField_written (name : String) (value : Nat) :
    appendUintField name value = written [(name, decimal (value % 2 ^ 32))] := rfl

theorem appendUint64Field_written (name : String) (value : UInt64) :
    appendUint64Field name value = written [(name, decimal value.toNat)] := rfl

theorem appendIntField_written (name : String) (value : Int32) :
    appendIntField name value = written [(name, signedDecimal value.toInt)] := rfl

theorem appendStringField_written (name : String) (value : Bytes) (maxLen : Nat) :
    appendStringField name value maxLen = written (stringMember name value maxLen) := by
  funext out
  rw [appendStringField, stringMember]
  split
  · rfl
  · rfl

theorem appendBoundedStringField_written (name : String) (value : Bytes) (maxEncodedLen : Nat)
    (fallback : Option String) :
    appendBoundedStringField name value maxEncodedLen fallback =
      written (boundedMember name value maxEncodedLen fallback) := by
  funext out
  rw [appendBoundedStringField, boundedMember]
  split
  · rfl
  · rfl

theorem appendObject_written (name : String) (members : List (String × Bytes)) :
    appendObject name (written members) = written [(name, objectText members)] := by
  funext out
  rw [appendObject, written_text]
  rfl

end CodexKeyboard.Status
