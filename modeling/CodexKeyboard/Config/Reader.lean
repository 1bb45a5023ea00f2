import CodexKeyboard.Schemes.Transact
import Mathlib.Data.List.DropRight

/-! The reader of `config_payload.cpp`: it finds the members of a JSON text by skipping over spans.

    A position is the part of the view behind it, and a reader gives what it read with the position behind
    that. A read behind the end of the view is a fault, and so is an operation that leaves the range of
    `int`; a loop is given fuel, so that one that does not come to its end would show. -/

namespace CodexKeyboard.Config

open Schemes Transact

abbrev Bytes := List UInt8

/-- What a C++ reader must never do. -/
inductive Fault where
  | outOfView | unfinished | overflow
  deriving DecidableEq, Repr

def quote : UInt8 := 34
def backslash : UInt8 := 92
def comma : UInt8 := 44
def colon : UInt8 := 58
def openBrace : UInt8 := 123
def closeBrace : UInt8 := 125
def openBracket : UInt8 := 91
def closeBracket : UInt8 := 93
def minus : UInt8 := 45

/-- `std::isspace` in the C locale. -/
def isSpace (byte : UInt8) : Bool := byte == 32 || (9 ≤ byte && byte ≤ 13)

def trim (value : Bytes) : Bytes := (value.dropWhile isSpace).rdropWhile isSpace

def skipWs (json : Bytes) : Bytes := json.dropWhile isSpace

/-- `json[pos + offset]`. -/
def readAt (json : Bytes) (offset : Nat) : Except Fault UInt8 := orThrow .outOfView json[offset]?

/-! ### Strings -/

def hexDigitValue (value : UInt8) : Option Nat :=
  if 48 ≤ value ∧ value ≤ 57 then some (value.toNat - 48)
  else if 97 ≤ value ∧ value ≤ 102 then some (10 + value.toNat - 97)
  else if 65 ≤ value ∧ value ≤ 70 then some (10 + value.toNat - 65)
  else none

/-- The loop of `read_utf16_code_unit`, over the digits that are left. -/
def codeUnitLoop (json : Bytes) : (count index value : Nat) → Except Fault (Option Nat)
  | 0, _, value => .ok (some value)
  | count + 1, index, value => do
    let byte ← readAt json index
    match hexDigitValue byte with
    | none => .ok none
    | some digit => codeUnitLoop json count (index + 1) ((value * 16 + digit) % 2 ^ 16)

def readUtf16CodeUnit (json : Bytes) : Except Fault (Option (Nat × Bytes)) :=
  if json.length < 4 then .ok none
  else do
    let value ← codeUnitLoop json 4 0 0
    .ok (value.map (·, json.drop 4))

/-- The bytes `append_utf8_code_point` appends; the bits it joins do not overlap. -/
def utf8CodePoint (codePoint : Nat) : Option Bytes :=
  if 0x10FFFF < codePoint ∨ (0xD800 ≤ codePoint ∧ codePoint ≤ 0xDFFF) then none
  else if codePoint ≤ 0x7F then some [.ofNat codePoint]
  else if codePoint ≤ 0x7FF then
    some [.ofNat (0xC0 + codePoint / 64), .ofNat (0x80 + codePoint % 64)]
  else if codePoint ≤ 0xFFFF then
    some [.ofNat (0xE0 + codePoint / 4096), .ofNat (0x80 + codePoint / 64 % 64), .ofNat (0x80 + codePoint % 64)]
  else
    some [.ofNat (0xF0 + codePoint / 262144), .ofNat (0x80 + codePoint / 4096 % 64),
      .ofNat (0x80 + codePoint / 64 % 64), .ofNat (0x80 + codePoint % 64)]

def sequenceLen (lead : UInt8) : Option Nat :=
  if 0xC2 ≤ lead ∧ lead ≤ 0xDF then some 2
  else if 0xE0 ≤ lead ∧ lead ≤ 0xEF then some 3
  else if 0xF0 ≤ lead ∧ lead ≤ 0xF4 then some 4
  else none

def isContinuation (byte : UInt8) : Bool := 0x80 ≤ byte && byte < 0xC0

/-- The bytes behind the lead continue it. -/
def continuationLoop (json : Bytes) : (count offset : Nat) → Except Fault Bool
  | 0, _ => .ok true
  | count + 1, offset => do
    let byte ← readAt json offset
    if isContinuation byte then continuationLoop json count (offset + 1) else .ok false

/-- The second bytes that a lead does not take. -/
def secondRefused (lead second : UInt8) : Bool :=
  (lead == 0xE0 && second < 0xA0) || (lead == 0xED && 0x9F < second) || (lead == 0xF0 && second < 0x90) ||
    (lead == 0xF4 && 0x8F < second)

def literalSequence (lead : UInt8) (json : Bytes) (len : Nat) : Except Fault (Option (Bytes × Bytes)) :=
  if json.length < len then .ok none
  else do
    let continued ← continuationLoop json (len - 1) 1
    if !continued then .ok none
    else do
      let second ← readAt json 1
      if secondRefused lead second then .ok none else .ok (some (json.take len, json.drop len))

def appendLiteralUtf8 (json : Bytes) : Except Fault (Option (Bytes × Bytes)) :=
  match json with
  | [] => .ok none
  | lead :: rest =>
    if lead ≤ 0x7F then if lead < 0x20 then .ok none else .ok (some ([lead], rest))
    else
      match sequenceLen lead with
      | none => .ok none
      | some len => literalSequence lead json len

/-- The escapes of one letter. -/
def simpleEscape (escaped : UInt8) : Option UInt8 :=
  if escaped = quote ∨ escaped = backslash ∨ escaped = 47 then some escaped
  else if escaped = 98 then some 8
  else if escaped = 102 then some 12
  else if escaped = 110 then some 10
  else if escaped = 114 then some 13
  else if escaped = 116 then some 9
  else none

/-- The second half of a surrogate pair. -/
def readLowSurrogate (first : Nat) (json : Bytes) : Except Fault (Option (Nat × Bytes)) :=
  match json with
  | 92 :: 117 :: rest => do
    match ← readUtf16CodeUnit rest with
    | none => .ok none
    | some (second, rest) =>
      if second < 0xDC00 ∨ 0xDFFF < second then .ok none
      else .ok (some (0x10000 + (first - 0xD800) * 1024 + (second - 0xDC00), rest))
  | _ => .ok none

def readCodePoint (json : Bytes) : Except Fault (Option (Nat × Bytes)) := do
  match ← readUtf16CodeUnit json with
  | none => .ok none
  | some (first, rest) =>
    if 0xD800 ≤ first ∧ first ≤ 0xDBFF then readLowSurrogate first rest
    else if 0xDC00 ≤ first ∧ first ≤ 0xDFFF then .ok none
    else .ok (some (first, rest))

/-- What stands behind a backslash. -/
def readEscape (json : Bytes) : Except Fault (Option (Bytes × Bytes)) :=
  match json with
  | [] => .ok none
  | escaped :: rest =>
    match simpleEscape escaped with
    | some byte => .ok (some ([byte], rest))
    | none =>
      if escaped = 117 then do
        match ← readCodePoint rest with
        | none => .ok none
        | some (codePoint, rest) => .ok ((utf8CodePoint codePoint).map (·, rest))
      else .ok none

/-- A character of a string, or an escape. -/
def readPiece (ch : UInt8) (json : Bytes) : Except Fault (Option (Bytes × Bytes)) :=
  if ch ≠ backslash then appendLiteralUtf8 (ch :: json) else readEscape json

def parseStringLoop : (fuel : Nat) → Bytes → (parsed : Bytes) →
    Except Fault (Option (Bytes × Bytes))
  | 0, _, _ => .error .unfinished
  | _ + 1, [], _ => .ok none
  | fuel + 1, ch :: json, parsed =>
    if ch = quote then .ok (some (parsed, json))
    else do
      match ← readPiece ch json with
      | none => .ok none
      | some (bytes, rest) => parseStringLoop fuel rest (parsed ++ bytes)

def parseString (json : Bytes) : Except Fault (Option (Bytes × Bytes)) :=
  match skipWs json with
  | [] => .ok none
  | ch :: json => if ch ≠ quote then .ok none else parseStringLoop (json.length + 1) json []

/-! ### Values -/

def skipCompositeLoop (opens closes : UInt8) : (fuel : Nat) → Bytes → (depth : Int) →
    Except Fault (Option Bytes)
  | 0, _, _ => .error .unfinished
  | _ + 1, [], _ => .ok none
  | fuel + 1, ch :: json, depth =>
    if ch = quote then do
      match ← parseString (ch :: json) with
      | none => .ok none
      | some (_, rest) => skipCompositeLoop opens closes fuel rest depth
    else if ch = opens then skipCompositeLoop opens closes fuel json (depth + 1)
    else if ch = closes then
      if depth - 1 = 0 then .ok (some json) else skipCompositeLoop opens closes fuel json (depth - 1)
    else skipCompositeLoop opens closes fuel json depth

def skipComposite (json : Bytes) (opens closes : UInt8) : Except Fault (Option Bytes) :=
  if json.head? ≠ some opens then .ok none else skipCompositeLoop opens closes (json.length + 1) json 0

def endsScalar (byte : UInt8) : Bool := byte == comma || byte == closeBrace || byte == closeBracket

/-- The text between two positions, and the second one. -/
def rangeTo (json : Bytes) (behind : Option Bytes) : Option (Bytes × Bytes) :=
  behind.map fun rest => (json.take (json.length - rest.length), rest)

def readValueRange (json : Bytes) : Except Fault (Option (Bytes × Bytes)) :=
  match skipWs json with
  | [] => .ok none
  | ch :: rest =>
    if ch = quote then do
      let string ← parseString (ch :: rest)
      .ok (rangeTo (ch :: rest) (string.map Prod.snd))
    else if ch = openBrace then do
      let behind ← skipComposite (ch :: rest) openBrace closeBrace
      .ok (rangeTo (ch :: rest) behind)
    else if ch = openBracket then do
      let behind ← skipComposite (ch :: rest) openBracket closeBracket
      .ok (rangeTo (ch :: rest) behind)
    else .ok (rangeTo (ch :: rest) (some ((ch :: rest).dropWhile (!endsScalar ·))))

/-- The loop of `field_value`, from a position in the object on. -/
def fieldValueLoop (field : Bytes) : (fuel : Nat) → Bytes → Except Fault (Option Bytes)
  | 0, _ => .error .unfinished
  | fuel + 1, json =>
    if json.length ≤ 1 then .ok none
    else if (skipWs json).head? = some closeBrace then .ok none
    else do
      match ← parseString (skipWs json) with
      | none => .ok none
      | some (key, json) =>
        if (skipWs json).head? ≠ some colon then .ok none
        else do
          match ← readValueRange (skipWs json).tail with
          | none => .ok none
          | some (value, json) =>
            if key = field then .ok (some value)
            else if (skipWs json).head? = some comma then fieldValueLoop field fuel (skipWs json).tail
            else fieldValueLoop field fuel (skipWs json)

/-- The view begins and ends with a pair of brackets. -/
def enclosed (value : Bytes) (opens closes : UInt8) : Bool :=
  decide (2 ≤ value.length) && value.head? == some opens && value.getLast? == some closes

def fieldValue (object field : Bytes) : Except Fault (Option Bytes) :=
  if !enclosed (trim object) openBrace closeBrace then .ok none
  else fieldValueLoop field ((trim object).length + 1) (trim object).tail

def firstArrayValue (array : Bytes) : Except Fault (Option Bytes) :=
  if !enclosed (trim array) openBracket closeBracket then .ok none
  else if (skipWs (trim array).tail).head? = some closeBracket then .ok none
  else do
    let range ← readValueRange (skipWs (trim array).tail)
    .ok (range.map Prod.fst)

def stringValue (value : Bytes) : Except Fault (Option Bytes) := do
  match ← parseString value with
  | none => .ok none
  | some (parsed, rest) => .ok (if skipWs rest = [] then some parsed else none)

/-- The bytes of an ASCII word. -/
def ascii (word : String) : Bytes := word.toList.map fun c => c.toNat.toUInt8

def boolValue (value : Bytes) : Option Bool :=
  if trim value = ascii "true" then some true
  else if trim value = ascii "false" then some false
  else none

/-- A result of `int` arithmetic. -/
def checkedInt (exact : Int) : Except Fault Int :=
  if -2 ^ 31 ≤ exact ∧ exact < 2 ^ 31 then .ok exact else .error .overflow

def intValueLoop : Bytes → (parsed : Int) → Except Fault (Option Int)
  | [], parsed => .ok (some parsed)
  | ch :: value, parsed =>
    if ch < 48 ∨ 57 < ch then .ok none
    else do
      let scaled ← checkedInt (parsed * 10)
      let parsed ← checkedInt (scaled + (ch.toNat - 48 : Int))
      intValueLoop value parsed

def intValue (value : Bytes) : Except Fault (Option Int) :=
  let value := trim value
  let negative := value.head? == some minus
  let digits := if negative then value.tail else value
  if digits = [] then .ok none
  else do
    match ← intValueLoop digits 0 with
    | none => .ok none
    | some parsed => do
      let result ← checkedInt (parsed * if negative then -1 else 1)
      .ok (some result)

end CodexKeyboard.Config
